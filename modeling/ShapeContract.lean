import ShapeContract.Main
import ShapeContract.Guard.Session
import ShapeContract.Schema.KindValue
import ShapeContract.Proofs.CommandLine.Echo
import ShapeContract.Proofs.CommandLine.LineBreaks
import ShapeContract.Proofs.Document.FirstRejected
import ShapeContract.Proofs.Guard.Course
import ShapeContract.Proofs.Pointer.Unambiguous
import ShapeContract.Proofs.Schema.Repair
import ShapeContract.Proofs.Schema.RoundTrip
import ShapeContract.Proofs.Rendering.Number
import ShapeContract.Proofs.Schema.Relocation
import ShapeContract.Proofs.Rendering.Array
import ShapeContract.Proofs.Schema.Construction
