import Encounter.Script.Replay
import Encounter.Script.Outline
import Encounter.Event.Json
import Encounter.Bus
import Encounter.Binding.Bundled
import Encounter.Main
import Encounter.Proofs.Chronicle.Faithful
import Encounter.Proofs.Conversation.Authored
import Encounter.Proofs.Conversation.Exclusive
import Encounter.Proofs.Conversation.Refinement
import Encounter.Proofs.Cancellation.Silence
import Encounter.Proofs.Conversation.Behind
import Encounter.Proofs.Conversation.Vain
import Encounter.Proofs.Conversation.Unbarred
import Encounter.Proofs.Engine.Apart
import Encounter.Proofs.Queue.Deferral
import Encounter.Proofs.Queue.Promise
import Encounter.Proofs.Console.Answers
import Encounter.Proofs.Console.Whereabouts
import Encounter.Proofs.Registry.Filled
import Encounter.Proofs.Bus.Delivery
import Encounter.Proofs.Script.Warps
import Encounter.Proofs.Cast.Tory
import Encounter.Proofs.Drop.Layout
import Encounter.Proofs.Event.RoundTrip
import Encounter.Proofs.Console.Attendance
import Encounter.Proofs.Ron.Gap
import Encounter.Proofs.Ron.Numeral
import Encounter.Proofs.Ron.Quoted
import Encounter.Proofs.Ron.Layout
import Encounter.Proofs.Ron.Reading
import Encounter.Proofs.Binding.Written
import Encounter.Proofs.Binding.RoundTrip
import Encounter.Proofs.Console.Printed
import Encounter.Proofs.World.Headcount
import Encounter.Proofs.Drop.Flat
import Encounter.Proofs.Trigger.Key
import Encounter.Proofs.Console.Grammar
import Encounter.Proofs.Console.Question
import Encounter.Proofs.Engine.Quiet
