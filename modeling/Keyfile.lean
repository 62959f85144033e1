import Keyfile.Store.Schedule
import Keyfile.Text.Utf8.Inverse
import Keyfile.Main
import Keyfile.Proofs.ForeignFile
import Keyfile.Proofs.History
import Keyfile.Proofs.UntouchedLines
import Keyfile.Proofs.ClosedForm
import Keyfile.Proofs.ExtractSlice
import Keyfile.Proofs.Interleavings
import Keyfile.Proofs.ExtractAgreement
import Keyfile.Proofs.AnyHistory
import Keyfile.Proofs.AsciiBytes
import Keyfile.Proofs.CleanNames
import Keyfile.Proofs.KeptForm
import Keyfile.Proofs.Outages
import Keyfile.Proofs.Concatenation
import Keyfile.Proofs.HeadingLines
import Keyfile.Proofs.NewFile
import Keyfile.Proofs.LineEndings
import Keyfile.Proofs.FaultLine
import Keyfile.Proofs.Overwriting
import Keyfile.Proofs.Processes
import Keyfile.Proofs.EscapeFlag
import Keyfile.Proofs.CanonicalDump
import Keyfile.Proofs.LineBoundaries
