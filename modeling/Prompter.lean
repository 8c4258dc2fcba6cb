import Prompter.Main
import Prompter.Rehearsal.Run
import Prompter.Session.Live
import Prompter.Proofs.Interpreter.Resynchronisation
import Prompter.Proofs.Tree.Notation
import Prompter.Proofs.Framer.Transcript
import Prompter.Proofs.Dispatcher.Closing
import Prompter.Proofs.Dispatcher.Succession
import Prompter.Proofs.Session.Soundness
import Prompter.Proofs.Session.Phase
import Prompter.Proofs.Session.Failure
import Prompter.Proofs.Session.Snapshot
import Prompter.Proofs.Session.Stopping
import Prompter.Proofs.Session.Chunking
import Prompter.Proofs.Session.Store
import Prompter.Proofs.Session.Mirror
import Prompter.Proofs.Framer.Conservation
import Prompter.Proofs.Interpreter.Burst
import Prompter.Proofs.Framer.Recognition
import Prompter.Proofs.Framer.Mention
import Prompter.Proofs.Text.Utf8.Lossy
import Prompter.Proofs.Session.Reply.Breakpoints
import Prompter.Proofs.Session.Reply.Report
import Prompter.Proofs.Tree.Spine
import Prompter.Proofs.Tree.Descent
import Prompter.Proofs.Tree.Scanning
import Prompter.Proofs.Dispatcher.Withdrawal
import Prompter.Proofs.Dispatcher.Subscription
import Prompter.Proofs.Console.Canonical
import Prompter.Proofs.Console.Spacing
import Prompter.Proofs.Console.Composition
import Prompter.Proofs.Console.Documents
import Prompter.Proofs.Session.Edits
import Prompter.Proofs.Tree.Writing
import Prompter.Proofs.Text.SameLines
import Prompter.Proofs.Rehearsal.Run
