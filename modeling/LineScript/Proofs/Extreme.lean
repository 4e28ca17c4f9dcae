/-
This file says what the least and the greatest of some values are. The search goes through the
values once and keeps the best it has seen. It fails as soon as it meets a value without an order to
the best one. Values have an order if they belong to one realm, the texts or the numbers, so it
fails for values of two realms, and for a value of none if there is another value.

What is kept is always one of the values. No value passed so far stands before it in the order asked
for, because standing strictly before is transitive even where whole numbers and floats are mixed.
-/

import LineScript.Proofs.Monad
import LineScript.Proofs.Standing
import LineScript.Value.Function

namespace LineScript

/-! ### Realms -/

/-- The values that can be compared with each other. -/
inductive Realm where
  | texts
  | numbers
deriving DecidableEq

namespace Value

/-- Whether a value is the float that is no number. -/
def isNan : Value → Bool
  | .float x => x.isNaN
  | _ => false

/-- The realm of a value; what is no number has none. -/
def realm? (value : Value) : Option Realm :=
  if value.isString then some .texts else if value.isNan then none else some .numbers

theorem isSome_standing? (value : Value) :
    value.standing?.isSome = (!value.isString && !value.isNan) := by
  cases value with
  | float x =>
    rw [Bool.eq_iff_iff]
    simp [standing?, isString, isNan, Option.isSome_iff_ne_none, floatRank?_eq_none_iff]
  | _ => rfl

theorem realm?_eq_texts_iff {value : Value} :
    value.realm? = some .texts ↔ value.isString = true := by
  unfold realm?
  cases value.isString <;> cases value.isNan <;> simp

theorem realm?_eq_numbers_iff {value : Value} :
    value.realm? = some .numbers ↔ value.isString = false ∧ value.isNan = false := by
  unfold realm?
  cases value.isString <;> cases value.isNan <;> simp

/-- Two values have an order exactly if they belong to one realm. -/
theorem exists_compare_iff_realm {left right : Value} :
    (∃ order, left.compare right = .ok order) ↔
      ∃ realm, left.realm? = some realm ∧ right.realm? = some realm := by
  rw [exists_compare_iff, isSome_standing?, isSome_standing?]
  unfold realm?
  cases left.isString <;> cases left.isNan <;> cases right.isString <;> cases right.isNan <;> simp

end Value

/-! ### Standing before -/

namespace Value

theorem compare_of_swap {left right : Value} {order : Ordering}
    (compared : left.compare right = .ok order) : right.compare left = .ok order.swap := by
  have swapped := left.compare_swapped right
  rw [compared] at swapped
  generalize right.compare left = back at swapped ⊢
  cases swapped
  rfl

section Before

variable {wanted : Ordering} (strict : wanted ≠ .eq)

include strict

theorem compare_asymm {first second : Value} (before : first.compare second = .ok wanted) :
    second.compare first ≠ .ok wanted := by
  rw [compare_of_swap before]
  intro same
  cases wanted with
  | eq => exact strict rfl
  | _ => cases same

/-- Standing before another value, on either side, is transitive. -/
theorem compare_strict_trans {first second third : Value}
    (before : first.compare second = .ok wanted) (before' : second.compare third = .ok wanted) :
    first.compare third = .ok wanted := by
  cases wanted with
  | lt => exact compare_trans before before'
  | eq => exact absurd rfl strict
  | gt => exact compare_of_swap (compare_trans (compare_of_swap before') (compare_of_swap before))

end Before

end Value

/-! ### The search -/

/-- The better of two values, by the order of the second to the first. -/
def better (wanted : Ordering) (best candidate : Value) (order : Ordering) : Value :=
  if order == wanted then candidate else best

theorem better_eq_or (wanted : Ordering) (best candidate : Value) (order : Ordering) :
    better wanted best candidate order = candidate ∧ order = wanted ∨
      better wanted best candidate order = best ∧ order ≠ wanted := by
  unfold better
  by_cases same : order = wanted
  · exact .inl ⟨if_pos (beq_iff_eq.mpr same), same⟩
  · exact .inr ⟨if_neg (mt beq_iff_eq.mp same), same⟩

theorem realm?_better (wanted order : Ordering) {best candidate : Value} {realm : Realm}
    (first : best.realm? = some realm) (second : candidate.realm? = some realm) :
    (better wanted best candidate order).realm? = some realm := by
  rcases better_eq_or wanted best candidate order with ⟨same, -⟩ | ⟨same, -⟩ <;> rwa [same]

/-- One turn of the search: the next value is compared with the best one, and the better of them is
kept. -/
theorem extremeFrom_cons_eq_ok_iff {wanted : Ordering} {best candidate result : Value}
    {rest : List Value} :
    extremeFrom wanted best (candidate :: rest) = .ok result ↔
      ∃ order, candidate.compare best = .ok order ∧
        extremeFrom wanted (better wanted best candidate order) rest = .ok result := by
  rw [extremeFrom, except_bind_eq_ok]
  refine exists_congr fun order => and_congr_right fun _ => ?_
  unfold better
  split <;> rfl

/-- The search succeeds if there is nothing to compare or all values belong to one realm. -/
theorem exists_extremeFrom_iff {wanted : Ordering} {best : Value} {rest : List Value} :
    (∃ result, extremeFrom wanted best rest = .ok result) ↔
      rest = [] ∨ ∃ realm, ∀ value ∈ best :: rest, value.realm? = some realm := by
  induction rest generalizing best with
  | nil => exact iff_of_true ⟨best, rfl⟩ (.inl rfl)
  | cons candidate rest inductionHypothesis =>
    simp only [extremeFrom_cons_eq_ok_iff, reduceCtorEq, false_or]
    constructor
    · rintro ⟨result, order, compared, found⟩
      obtain ⟨realm, first, second⟩ := Value.exists_compare_iff_realm.mp ⟨order, compared⟩
      -- Whichever is kept, its realm is that of both, so the rest shares it.
      have kept := realm?_better wanted order second first
      refine ⟨realm, List.forall_mem_cons.mpr ⟨second, List.forall_mem_cons.mpr ⟨first, ?_⟩⟩⟩
      rcases inductionHypothesis.mp ⟨result, found⟩ with rfl | ⟨other, all⟩
      · exact fun _ absent => absurd absent List.not_mem_nil
      · obtain ⟨shared, others⟩ := List.forall_mem_cons.mp all
        cases kept.symm.trans shared
        exact others
    · rintro ⟨realm, all⟩
      obtain ⟨second, others⟩ := List.forall_mem_cons.mp all
      obtain ⟨first, others⟩ := List.forall_mem_cons.mp others
      obtain ⟨order, compared⟩ := Value.exists_compare_iff_realm.mpr ⟨realm, first, second⟩
      have kept := realm?_better wanted order second first
      obtain ⟨result, found⟩ :=
        inductionHypothesis.mpr (.inr ⟨realm, List.forall_mem_cons.mpr ⟨kept, others⟩⟩)
      exact ⟨result, order, compared, found⟩

theorem extremeFrom_mem {wanted : Ordering} {best result : Value} {rest : List Value}
    (found : extremeFrom wanted best rest = .ok result) : result ∈ best :: rest := by
  induction rest generalizing best with
  | nil =>
    cases found
    exact List.mem_cons_self
  | cons candidate rest inductionHypothesis =>
    obtain ⟨order, -, found⟩ := extremeFrom_cons_eq_ok_iff.mp found
    have member := inductionHypothesis found
    rcases better_eq_or wanted best candidate order with ⟨same, -⟩ | ⟨same, -⟩
    · rw [same] at member
      exact List.mem_cons_of_mem best member
    · rw [same] at member
      rcases List.mem_cons.mp member with rfl | later
      · exact List.mem_cons_self
      · exact List.mem_cons_of_mem best (List.mem_cons_of_mem candidate later)

section Search

variable {wanted : Ordering} (strict : wanted ≠ .eq) {best result : Value} {rest : List Value}

include strict

/-- What is kept is never replaced by a value that does not stand before it. -/
theorem extremeFrom_eq_or_before (found : extremeFrom wanted best rest = .ok result) :
    result = best ∨ result.compare best = .ok wanted := by
  induction rest generalizing best with
  | nil =>
    cases found
    exact .inl rfl
  | cons candidate rest inductionHypothesis =>
    obtain ⟨order, compared, found⟩ := extremeFrom_cons_eq_ok_iff.mp found
    have later := inductionHypothesis found
    rcases better_eq_or wanted best candidate order with ⟨same, rfl⟩ | ⟨same, -⟩
    · rw [same] at later
      rcases later with rfl | before
      · exact .inr compared
      · exact .inr (Value.compare_strict_trans strict before compared)
    · rwa [same] at later

/-- A value that does not stand before the best one does not stand before the result. -/
theorem extremeFrom_not_before (found : extremeFrom wanted best rest = .ok result) {value : Value}
    (behind : value.compare best ≠ .ok wanted) : value.compare result ≠ .ok wanted := by
  rcases extremeFrom_eq_or_before strict found with rfl | before
  · exact behind
  · exact fun ahead => behind (Value.compare_strict_trans strict ahead before)

theorem extremeFrom_least (found : extremeFrom wanted best rest = .ok result) :
    ∀ value ∈ best :: rest, value.compare result ≠ .ok wanted := by
  induction rest generalizing best with
  | nil =>
    exact List.forall_mem_singleton.mpr
      (extremeFrom_not_before strict found fun self => Value.compare_asymm strict self self)
  | cons candidate rest inductionHypothesis =>
    have first : best.compare result ≠ .ok wanted :=
      extremeFrom_not_before strict found fun self => Value.compare_asymm strict self self
    obtain ⟨order, compared, found⟩ := extremeFrom_cons_eq_ok_iff.mp found
    obtain ⟨kept, others⟩ := List.forall_mem_cons.mp (inductionHypothesis found)
    refine List.forall_mem_cons.mpr ⟨first, List.forall_mem_cons.mpr ⟨?_, others⟩⟩
    rcases better_eq_or wanted best candidate order with ⟨same, -⟩ | ⟨same, differ⟩
    · rwa [same] at kept
    · rw [same] at found
      refine extremeFrom_not_before strict found fun ahead => differ ?_
      exact Except.ok.inj (compared.symm.trans ahead)

end Search

/-! ### Least and greatest -/

/-- The orders that the two functions ask for. -/
def extremes : List (String × Ordering) :=
  [("min", .lt), ("max", .gt)]

theorem callFunction_extreme {name : String} {wanted : Ordering}
    (known : (name, wanted) ∈ extremes) (first : Value) (rest : List Value) :
    wanted ≠ .eq ∧ callFunction name (first :: rest) = extremeFrom wanted first rest := by
  simp only [extremes, List.mem_cons, Prod.mk.injEq, List.not_mem_nil, or_false] at known
  rcases known with ⟨rfl, rfl⟩ | ⟨rfl, rfl⟩ <;> exact ⟨nofun, rfl⟩

/-- The values of a non-empty list of which the extremes exist: a single one, strings only, or
numbers only. -/
def HasExtremes (arguments : List Value) : Prop :=
  arguments.length = 1 ∨ (∀ value ∈ arguments, value.isString = true) ∨
    ∀ value ∈ arguments, value.isString = false ∧ value.isNan = false

instance (arguments : List Value) : Decidable (HasExtremes arguments) :=
  inferInstanceAs (Decidable (_ ∨ _))

theorem hasExtremes_perm {arguments others : List Value} (same : arguments.Perm others) :
    HasExtremes arguments ↔ HasExtremes others := by
  unfold HasExtremes
  simp only [same.length_eq, same.mem_iff]

theorem hasExtremes_cons_iff {first : Value} {rest : List Value} :
    HasExtremes (first :: rest) ↔
      rest = [] ∨ ∃ realm, ∀ value ∈ first :: rest, value.realm? = some realm := by
  have realms : (∃ realm, ∀ value ∈ first :: rest, value.realm? = some realm) ↔
      (∀ value ∈ first :: rest, value.isString = true) ∨
        ∀ value ∈ first :: rest, value.isString = false ∧ value.isNan = false := by
    simp only [← Value.realm?_eq_texts_iff, ← Value.realm?_eq_numbers_iff]
    constructor
    · rintro ⟨_ | _, all⟩
      · exact .inl all
      · exact .inr all
    · rintro (all | all)
      · exact ⟨.texts, all⟩
      · exact ⟨.numbers, all⟩
  rw [HasExtremes, realms, List.length_cons, Nat.add_eq_right, List.length_eq_zero_iff]

/-- The least and the greatest of one or more values exist exactly if there is one value, if all are
strings, or if none is a string and all are numbers. Then the result is one of the values as it is,
and none of them stands before it in the order asked for. Whether there is a result does not depend
on how the values are arranged. -/
theorem least_and_greatest {name : String} {wanted : Ordering}
    (known : (name, wanted) ∈ extremes) {arguments : List Value} (filled : arguments ≠ []) :
    ((∃ result, callFunction name arguments = .ok result) ↔ HasExtremes arguments) ∧
      (∀ result, callFunction name arguments = .ok result →
        result ∈ arguments ∧ ∀ value ∈ arguments, value.compare result ≠ .ok wanted) ∧
      ∀ others, arguments.Perm others →
        ((∃ result, callFunction name arguments = .ok result) ↔
          ∃ result, callFunction name others = .ok result) := by
  have succeeds : ∀ arguments, arguments ≠ [] →
      ((∃ result, callFunction name arguments = .ok result) ↔ HasExtremes arguments) := by
    rintro (_ | ⟨first, rest⟩) filled
    · exact absurd rfl filled
    · rw [(callFunction_extreme known first rest).2, hasExtremes_cons_iff, exists_extremeFrom_iff]
  refine ⟨succeeds arguments filled, fun result found => ?_, fun others same => ?_⟩
  · obtain _ | ⟨first, rest⟩ := arguments
    · exact absurd rfl filled
    · obtain ⟨strict, called⟩ := callFunction_extreme known first rest
      rw [called] at found
      exact ⟨extremeFrom_mem found, extremeFrom_least strict found⟩
  · have alsoFilled : others ≠ [] := fun empty => filled (List.Perm.eq_nil (empty ▸ same))
    rw [succeeds arguments filled, succeeds others alsoFilled, hasExtremes_perm same]

/-- The greatest of a row in which a float is equal to two whole numbers that differ. -/
theorem least_and_greatest_mixed :
    ("max", Ordering.gt) ∈ extremes ∧
      HasExtremes [.float 9007199254740992.0, .int 9007199254740992, .int 9007199254740993] ∧
      ∃ result, callFunction "max"
        [.float 9007199254740992.0, .int 9007199254740992, .int 9007199254740993] = .ok result :=
  have known : ("max", Ordering.gt) ∈ extremes := by decide
  have numbers : HasExtremes
      [.float 9007199254740992.0, .int 9007199254740992, .int 9007199254740993] := by
    decide +kernel
  ⟨known, numbers, (least_and_greatest known (List.cons_ne_nil _ _)).1.mpr numbers⟩

end LineScript
