import TopicMesh.KeyMap
import TopicMesh.Filter
import TopicMesh.Wire.Envelope
import TopicMesh.Signal.Json
import TopicMesh.ControlFrame.Json
import TopicMesh.Announcement
import TopicMesh.RouteTable
import TopicMesh.Subscriptions
import TopicMesh.Line
import TopicMesh.Line.Remote
import TopicMesh.Broker.Server
import TopicMesh.Session.Handshake
import TopicMesh.Session.Timed
import TopicMesh.Session.Pair
import TopicMesh.Mesh
import TopicMesh.Settings
import TopicMesh.Proofs.Broker.TakeOver
import TopicMesh.Proofs.Announcement.RoundTrip
import TopicMesh.Proofs.Discovery.Topics
import TopicMesh.Proofs.Discovery.View
import TopicMesh.Proofs.Node.Effects
import TopicMesh.Proofs.Node.Outcomes
import TopicMesh.Proofs.Broker.Posting
import TopicMesh.Proofs.Node.Subscribing
import TopicMesh.Proofs.Node.Hearing
import TopicMesh.Proofs.Node.Serving
import TopicMesh.Proofs.Node.Advertising
import TopicMesh.Proofs.Broker.Listening
import TopicMesh.Proofs.Mesh.Listeners
import TopicMesh.Proofs.Mesh.Calls
import TopicMesh.Proofs.Mesh.Convergence
import TopicMesh.Proofs.Text.Reading
import TopicMesh.Proofs.Json.RoundTrip
import TopicMesh.Proofs.Signal.RoundTrip
import TopicMesh.Proofs.Wire.FrameStream
import TopicMesh.Proofs.Wire.Envelope
import TopicMesh.Proofs.Wire.EnvelopeStream
import TopicMesh.Proofs.Session.Feeding
import TopicMesh.Proofs.Session.Joined
import TopicMesh.Proofs.Session.Agreement
import TopicMesh.Proofs.Session.Interleaving
import TopicMesh.Proofs.Session.Readiness
import TopicMesh.Proofs.Session.Completion
import TopicMesh.Proofs.Session.Conduct
import TopicMesh.Proofs.Broker.Naive
import TopicMesh.Proofs.RouteTable.Flat
import TopicMesh.Proofs.RouteTable.Sessions
import TopicMesh.Proofs.Discovery.History
import TopicMesh.Proofs.Discovery.Bookkeeping
import TopicMesh.Proofs.Discovery.Divergence
import TopicMesh.Proofs.Session.Settling
import TopicMesh.Proofs.Session.Recording
import TopicMesh.Proofs.Session.FrameOrder
import TopicMesh.Proofs.Json.Record
import TopicMesh.Proofs.Message.RoundTrip
import TopicMesh.Proofs.ControlFrame.RoundTrip
import TopicMesh.Proofs.Session.Moments
import TopicMesh.Proofs.Session.LifeCycle
import TopicMesh.Proofs.Retained.Written
import TopicMesh.Proofs.Broker.Retaining
import TopicMesh.Proofs.Node.Lodging
import TopicMesh.Proofs.Node.FanOut
import TopicMesh.Proofs.Node.AtWork
import TopicMesh.Proofs.Node.Course
import TopicMesh.Proofs.Broker.Stirring
import TopicMesh.Proofs.Node.Mooring
import TopicMesh.Proofs.Node.Records
import TopicMesh.Proofs.Node.Job
import TopicMesh.Proofs.Node.Calling
import TopicMesh.Proofs.Mesh.Turns
import TopicMesh.Proofs.Mesh.Relaying
import TopicMesh.Proofs.Node.Asking
import TopicMesh.Proofs.Node.Enrolment
import TopicMesh.Proofs.Node.AtOnce
import TopicMesh.Proofs.Node.Undoing
import TopicMesh.Proofs.Broker.Queues
import TopicMesh.Proofs.Broker.Dealings
import TopicMesh.Proofs.Broker.Switchboard
import TopicMesh.Proofs.Broker.Wills
import TopicMesh.Proofs.Node.Saying
import TopicMesh.Proofs.Mesh.Overheard
import TopicMesh.Proofs.Mesh.Exchange
import TopicMesh.Proofs.Mesh.Answering
import TopicMesh.Proofs.Mesh.Answered
import TopicMesh.Proofs.Line.Links
import TopicMesh.Proofs.Node.Publishers
import TopicMesh.Proofs.RouteTable.Commuting
import TopicMesh.Proofs.Discovery.Commuting
import TopicMesh.Proofs.Discovery.Glimpses
import TopicMesh.Proofs.Filter.Matching
import TopicMesh.Proofs.Sequence.Places
import TopicMesh.Proofs.Session.Candidates
import TopicMesh.Proofs.Session.Holding
import TopicMesh.Proofs.Mesh.Numbering
import TopicMesh.Proofs.Announcement.Canonical
import TopicMesh.Proofs.Announcement.Entries
import TopicMesh.Proofs.Discovery.Redelivery
import TopicMesh.Proofs.Broker.Racing
import TopicMesh.Proofs.Direct.Dialing
import TopicMesh.Proofs.Discovery.Sorting
import TopicMesh.Proofs.Subscriptions.Lifetimes
import TopicMesh.Proofs.Line.Forgotten
import TopicMesh.Proofs.Session.Draining
