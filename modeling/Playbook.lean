import Playbook.Graph.Local
import Playbook.Main
import Playbook.Proofs.Reason
import Playbook.Proofs.LocalReads
import Playbook.Proofs.Course
import Playbook.Proofs.Distance
import Playbook.Proofs.Queue
import Playbook.Proofs.Search
import Playbook.Proofs.Unstuck
import Playbook.Proofs.Printed
import Playbook.Proofs.Comparison
import Playbook.Proofs.NullChecks
import Playbook.Proofs.Layouts
import Playbook.Proofs.Overlay
import Playbook.Proofs.Foreseen
import Playbook.Proofs.StoresAgree
import Playbook.Proofs.MemoryLives
import Playbook.Proofs.KeptAnswers
import Playbook.Proofs.Integrity
import Playbook.Proofs.Mirror
import Playbook.Proofs.FreshIds
import Playbook.Proofs.Turns
import Playbook.Proofs.Separation
import Playbook.Proofs.Confidence
import Playbook.Proofs.Writing
import Playbook.Proofs.Rewriting
import Playbook.Proofs.ReadBack
import Playbook.Proofs.Engines
import Playbook.Proofs.FailedPuts
import Playbook.Proofs.StatedEdges
import Playbook.Proofs.StatementOrder
import Playbook.Proofs.Itinerary
import Playbook.Proofs.Lenience
import Playbook.Proofs.StepLimit
import Playbook.Proofs.Revisits
import Playbook.Proofs.DeadRelations
import Playbook.Proofs.Agreement
import Playbook.Proofs.InsertionOrder
import Playbook.Proofs.Acceptance
import Playbook.Proofs.Expiry
import Playbook.Proofs.Sessions
import Playbook.Proofs.Conversion
