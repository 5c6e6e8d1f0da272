import RigScript.Main
import RigScript.Session
import RigScript.Proofs.Graph.Requests
import RigScript.Proofs.Graph.Incoming
import RigScript.Proofs.Graph.Dataflow
import RigScript.Proofs.Graph.Naming
import RigScript.Proofs.Graph.Reachable
import RigScript.Proofs.Compile.Run
import RigScript.Proofs.Compile.Network
import RigScript.Proofs.Compile.Meaning
import RigScript.Proofs.Convert.Commit
import RigScript.Proofs.Program.Expressions
import RigScript.Proofs.Program.Parsing
import RigScript.Proofs.Program.Cursor
import RigScript.Proofs.Program.Advance
import RigScript.Proofs.Compile.Discipline
import RigScript.Proofs.Graph.Journal
import RigScript.Proofs.Convert.Footprint
import RigScript.Proofs.Convert.Listing
import RigScript.Proofs.Compile.Assembly
import RigScript.Proofs.Convert.Rollback
import RigScript.Proofs.Convert.Batch
import RigScript.Proofs.Host.Course
import RigScript.Proofs.Compile.Progress
import RigScript.Proofs.Compile.Compilable
import RigScript.Proofs.Graph.Interchange
import RigScript.Proofs.Compile.Independence
import RigScript.Proofs.Session
import RigScript.Proofs.Compile.Cycles
import RigScript.Proofs.Convert.Accounting
import RigScript.Proofs.Token.Scanning
import RigScript.Proofs.Token.Spacing
import RigScript.Proofs.Token.Truncation
import RigScript.Proofs.Program.Breaks
import RigScript.Proofs.Program.Faults
import RigScript.Proofs.Program.Height
import RigScript.Proofs.Graph.Locks
import RigScript.Proofs.Graph.Reading
import RigScript.Proofs.Compile.Complaints
import RigScript.Proofs.Convert.Blame
import RigScript.Proofs.Curve.Keys
import RigScript.Proofs.Curve.Sampling
import RigScript.Proofs.Scene.RoundTrip
