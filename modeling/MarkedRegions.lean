import MarkedRegions.Line.Grammar
import MarkedRegions.Main
import MarkedRegions.Proofs.Scan.Success
import MarkedRegions.Proofs.Scan.Failure
import MarkedRegions.Proofs.Scan.Decision
import MarkedRegions.Proofs.Scan.Completion
import MarkedRegions.Proofs.Scan.Naming
import MarkedRegions.Proofs.Edit.Seams
import MarkedRegions.Proofs.Edit.Reread
import MarkedRegions.Proofs.Edit.Apart
import MarkedRegions.Proofs.Edit.Order
import MarkedRegions.Proofs.Edit.Parts
import MarkedRegions.Proofs.Edit.WriteBack
import MarkedRegions.Proofs.Edit.Bounds
import MarkedRegions.Proofs.Edit.InPlace
import MarkedRegions.Proofs.Edit.InTurn
import MarkedRegions.Proofs.Edit.LastWrite
import MarkedRegions.Proofs.Edit.Convention
import MarkedRegions.Proofs.Edit.Session
import MarkedRegions.Proofs.Disk.Atomic
import MarkedRegions.Proofs.Invocation.Replacing
import MarkedRegions.Proofs.Invocation.Batch
import MarkedRegions.Proofs.Invocation.Displaying
import MarkedRegions.Proofs.Invocation.Assigning
