import LineScript.Command.Run
import LineScript.Files.Tree
import LineScript.Main
import LineScript.Proofs.ShownText
import LineScript.Proofs.Coincidence
import LineScript.Proofs.Truncation
import LineScript.Proofs.Pacing
import LineScript.Proofs.Segmentation
import LineScript.Proofs.Frame
import LineScript.Proofs.Composition
import LineScript.Proofs.Strictness
import LineScript.Proofs.Layout
import LineScript.Proofs.WholeWord
import LineScript.Proofs.Region
import LineScript.Proofs.Blame
import LineScript.Proofs.Placement
import LineScript.Proofs.WholeText
import LineScript.Proofs.Chain
import LineScript.Proofs.Order
import LineScript.Proofs.Retrieval
import LineScript.Proofs.Nearest
import LineScript.Proofs.Rank
import LineScript.Proofs.Standing
import LineScript.Proofs.Extreme
import LineScript.Proofs.Bypass
import LineScript.Proofs.Unrolling
import LineScript.Proofs.Provenance
import LineScript.Proofs.Columns
import LineScript.Proofs.Canonical
import LineScript.Proofs.Ascending
import LineScript.Proofs.Discovery
import LineScript.Proofs.Extent
import LineScript.Proofs.Cursor
