import TopicRouter.Qos
import TopicRouter.Retained.History
import TopicRouter.Retained.Message
import TopicRouter.Retained.Tree
import TopicRouter.Router.Basic
import TopicRouter.Router.Contents
import TopicRouter.Router.Delivery
import TopicRouter.Router.Error
import TopicRouter.Router.Session
import TopicRouter.Router.Settings
import TopicRouter.Subscriber.FloatBits
import TopicRouter.Subscriber.Handle
import TopicRouter.Subscriber.Identity
import TopicRouter.Subscriber.Origin
import TopicRouter.Subscriber.Token
import TopicRouter.Subscription.Entry
import TopicRouter.Subscription.History
import TopicRouter.Subscription.Tree
import TopicRouter.Topic.Cover
import TopicRouter.Topic.Error
import TopicRouter.Topic.Level
import TopicRouter.Topic.Piece
import TopicRouter.Topic.Read
import TopicRouter.Topic.Scan
import TopicRouter.Tree.Basic
import TopicRouter.Tree.Walk
import TopicRouter.Proofs.Topic.Grammar
import TopicRouter.Proofs.Topic.Joining
import TopicRouter.Proofs.Topic.Normal
import TopicRouter.Proofs.Tree.Keyed
import TopicRouter.Proofs.Tree.Pruned
import TopicRouter.Proofs.Tree.Within
import TopicRouter.Proofs.Tree.Depth
import TopicRouter.Proofs.Subscription.Matching
import TopicRouter.Proofs.Subscription.Refinement
import TopicRouter.Proofs.Subscription.Revising
import TopicRouter.Proofs.Subscription.Commuting
import TopicRouter.Proofs.Subscription.Pruning
import TopicRouter.Proofs.Subscription.Tenure
import TopicRouter.Proofs.Tree.Addressing
import TopicRouter.Proofs.Retained.Matching
import TopicRouter.Proofs.Retained.Keeping
import TopicRouter.Proofs.Tree.Stopping
import TopicRouter.Proofs.Tree.Undoing
import TopicRouter.Proofs.Router.Carrying
import TopicRouter.Proofs.Router.Invariant
import TopicRouter.Proofs.Router.Filing
import TopicRouter.Proofs.Router.Agreement
import TopicRouter.Proofs.Router.Retaining
import TopicRouter.Proofs.Router.Buffers
import TopicRouter.Proofs.Router.Rejection
import TopicRouter.Proofs.Router.LevelLimit
import TopicRouter.Proofs.Router.Checks
import TopicRouter.Proofs.Router.Closing
import TopicRouter.Proofs.Router.Depth
import TopicRouter.Proofs.Subscriber.FloatValue
import TopicRouter.Proofs.Subscriber.Kinds
import TopicRouter.Proofs.Subscriber.Descent
