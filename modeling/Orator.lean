import Orator.Config.Toml
import Orator.Proofs.Pipeline.Undisturbed
import Orator.Record
import Orator.Rehearsal.Bench
import Orator.Rehearsal.Machine
import Orator.Rehearsal.Scene
import Orator.Rehearsal.Tally
import Orator.Proofs.Dispatcher.Exclusive
import Orator.Proofs.Dispatcher.Deeds
import Orator.Proofs.Service.Run
import Orator.Proofs.Service.OneAtATime
import Orator.Proofs.Dispatcher.Flow
import Orator.Proofs.Dispatcher.Underway
import Orator.Proofs.Dispatcher.Renewed
import Orator.Proofs.Service.Cancellation
import Orator.Proofs.Pipeline.Ending
import Orator.Proofs.Session.Instances
import Orator.Proofs.Session.Step
import Orator.Proofs.Session.Memory
import Orator.Proofs.Dispatcher.Staffed
import Orator.Proofs.Dispatcher.Resolve
import Orator.Proofs.Service.Release
import Orator.Proofs.Dispatcher.Answer
import Orator.Proofs.Dispatcher.Performance
import Orator.Proofs.Service.Independence
import Orator.Proofs.Dispatcher.Progress
import Orator.Proofs.Dispatcher.Completed
import Orator.Proofs.Service.Promptness
import Orator.Proofs.Text.Uppercase
import Orator.Proofs.Voice.Codec
import Orator.Proofs.Voice.Discovery
import Orator.Proofs.Session.Selection
import Orator.Proofs.Voice.Naming
import Orator.Proofs.Dispatcher.Phrase
import Orator.Proofs.Service.Protocol
import Orator.Proofs.Text.Markup
import Orator.Proofs.Session.DefaultOrder
import Orator.Proofs.Session.Switching
import Orator.Proofs.Session.Refusal
import Orator.Proofs.Text.Residue
import Orator.Proofs.Pipeline.Account
import Orator.Proofs.Dispatcher.Uttered
