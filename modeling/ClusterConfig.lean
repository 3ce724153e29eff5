import ClusterConfig.Command
import ClusterConfig.Command.Condition
import ClusterConfig.Command.Format
import ClusterConfig.Command.Line
import ClusterConfig.Command.Outcome
import ClusterConfig.Command.Program
import ClusterConfig.Command.Shell.Arithmetic
import ClusterConfig.Command.Shell.Pattern
import ClusterConfig.Command.Shell.Reading
import ClusterConfig.Command.Shell.Running
import ClusterConfig.Command.Shell.Script
import ClusterConfig.Command.Shell.Token
import ClusterConfig.Command.Status
import ClusterConfig.Command.Tools
import ClusterConfig.Config
import ClusterConfig.Config.Operation
import ClusterConfig.Config.Property
import ClusterConfig.Decimal.Binary64
import ClusterConfig.Decimal.Notation
import ClusterConfig.Decimal.Shortest
import ClusterConfig.Error
import ClusterConfig.FileSystem
import ClusterConfig.FileSystem.Fault
import ClusterConfig.FileSystem.File
import ClusterConfig.FileSystem.Standard
import ClusterConfig.FileSystem.Tree
import ClusterConfig.Host
import ClusterConfig.Json
import ClusterConfig.Log.Event
import ClusterConfig.Log.Level
import ClusterConfig.Log.Options
import ClusterConfig.Log.Rotation
import ClusterConfig.Log.WatchedFile
import ClusterConfig.Namespace
import ClusterConfig.Namespace.Operation
import ClusterConfig.NodeName
import ClusterConfig.Number
import ClusterConfig.Path
import ClusterConfig.Proofs.Aging
import ClusterConfig.Proofs.CommandOutput
import ClusterConfig.Proofs.Controller
import ClusterConfig.Proofs.Deployment
import ClusterConfig.Proofs.Directories
import ClusterConfig.Proofs.FailedSetUp
import ClusterConfig.Proofs.FileContents
import ClusterConfig.Proofs.Files
import ClusterConfig.Proofs.InstanceTypes
import ClusterConfig.Proofs.JsonProperties
import ClusterConfig.Proofs.LoadSave
import ClusterConfig.Proofs.LogLimits
import ClusterConfig.Proofs.LogPlace
import ClusterConfig.Proofs.LogRotation
import ClusterConfig.Proofs.LogSetUp
import ClusterConfig.Proofs.Lookups
import ClusterConfig.Proofs.LossyText
import ClusterConfig.Proofs.MergeKeys
import ClusterConfig.Proofs.MergeOrder
import ClusterConfig.Proofs.MergePrecedence
import ClusterConfig.Proofs.Namespace
import ClusterConfig.Proofs.NamespaceHistory
import ClusterConfig.Proofs.NodeName
import ClusterConfig.Proofs.Outcome
import ClusterConfig.Proofs.Paths
import ClusterConfig.Proofs.Promises
import ClusterConfig.Proofs.Redescribed
import ClusterConfig.Proofs.Reload
import ClusterConfig.Proofs.RoundTrip
import ClusterConfig.Proofs.SavedView
import ClusterConfig.Proofs.Saving
import ClusterConfig.Proofs.Scopes
import ClusterConfig.Proofs.SessionSteps
import ClusterConfig.Proofs.Text
import ClusterConfig.Proofs.Value.Conversion
import ClusterConfig.Proofs.Value.Counterparts
import ClusterConfig.Proofs.Value.Equality
import ClusterConfig.Proofs.Value.EqualityLaws
import ClusterConfig.Proofs.Value.Keys
import ClusterConfig.Proofs.Value.Places
import ClusterConfig.Proofs.Value.PlainTree
import ClusterConfig.Proofs.Value.Tree
import ClusterConfig.Proofs.Value.Written
import ClusterConfig.Proofs.Yaml.Expansion
import ClusterConfig.Proofs.Yaml.Merge
import ClusterConfig.Proofs.Yaml.Reading
import ClusterConfig.Proofs.Yaml.Tree
import ClusterConfig.Role
import ClusterConfig.Session
import ClusterConfig.Session.Command
import ClusterConfig.Session.Config
import ClusterConfig.Session.Directory
import ClusterConfig.Session.History
import ClusterConfig.Session.Scope
import ClusterConfig.Text.Blank
import ClusterConfig.Text.Printable
import ClusterConfig.Text.Quoted
import ClusterConfig.Text.Utf8
import ClusterConfig.Value
import ClusterConfig.Value.Conversion
import ClusterConfig.Value.Equality
import ClusterConfig.Value.Shown
import ClusterConfig.Yaml.Cursor
import ClusterConfig.Yaml.Document
import ClusterConfig.Yaml.Event
import ClusterConfig.Yaml.Fault
import ClusterConfig.Yaml.Layout
import ClusterConfig.Yaml.Merge
import ClusterConfig.Yaml.Node
import ClusterConfig.Yaml.Property
import ClusterConfig.Yaml.Resolution
import ClusterConfig.Yaml.Scalar.Block
import ClusterConfig.Yaml.Scalar.Gap
import ClusterConfig.Yaml.Scalar.Plain
import ClusterConfig.Yaml.Scalar.Quoted
import ClusterConfig.Yaml.ScalarText
import ClusterConfig.Yaml.Token
import ClusterConfig.Yaml.TokenStream
