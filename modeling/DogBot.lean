import DogBot.Library.Arrival
import DogBot.Exec.LifeCycle
import DogBot.Library.Concurrent
import DogBot.Library.Machine
import DogBot.History.Isolation
import DogBot.Platforms.Adapters
import DogBot.Dispatch
import DogBot.Models
import DogBot.Normalizer.RoundTrip
import DogBot.Normalizer.Outside
import DogBot.Platforms.Delivery
import DogBot.Platforms.QqEgress
import DogBot.Platforms.QqIngress
import DogBot.Platforms.Replies
import DogBot.Pipeline.TurnPrompt
import DogBot.Platforms.Sender
import DogBot.Proxy.BasePath
import DogBot.Proxy.Endpoint
import DogBot.Proxy.Headers
import DogBot.Scheduler.Reference
import DogBot.Scheduler.Runs
import DogBot.Scheduler.Spurious
import DogBot.Scheduler.TasksAhead
import DogBot.Server.Exclusivity
import DogBot.Session.Events
import DogBot.Session.AliasRace
import DogBot.Session.Ownership
import DogBot.Platforms.QqRaw
import DogBot.Platforms.QqReplies
import DogBot.Platforms.QqReactions
import DogBot.Platforms.WeChatMentions
import DogBot.Server.GrantScope
import DogBot.Server.SystemPrompt
import DogBot.Server.Messages
import DogBot.Exec.Output
import DogBot.Platforms.Senderless
import DogBot.Library.Runs
import DogBot.Platforms.WeChatRequests
import DogBot.Normalizer.Directive
import DogBot.Normalizer.Links
import DogBot.Library.Joined
import DogBot.Normalizer.Residue
import DogBot.Platforms.QqMentions
import DogBot.Library.Markers
import DogBot.Server.MentionRefs
import DogBot.Library.Sql
import DogBot.History.ReaderRole
import DogBot.History.SearchQuery
import DogBot.Library.Like
import DogBot.Library.Condition
import DogBot.History.SenderFilter
import DogBot.Exec.PromptOnce
import DogBot.Library.Calls
import DogBot.Server.Delivery
import DogBot.Server.Plans
import DogBot.Library.Draining
import DogBot.Server.Addressees
import DogBot.Server.Status
import DogBot.Exec.Current
import DogBot.History.Messages
import DogBot.Server.Memory
import DogBot.Docker.Client
import DogBot.Docker.Daemon
import DogBot.Docker.Runs
import DogBot.Server.MessageDelivery
import DogBot.Proxy.Handler
import DogBot.Server.DirectRuns
