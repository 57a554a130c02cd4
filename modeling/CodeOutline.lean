import CodeOutline.Config.Starter
import CodeOutline.Graph.Migration
import CodeOutline.Main
import CodeOutline.Proofs.Service.Regeneration
import CodeOutline.Proofs.Service.Session
import CodeOutline.Proofs.Graph.SameFacts
import CodeOutline.Proofs.Graph.Interleaving
import CodeOutline.Proofs.Ingest.Stored
import CodeOutline.Proofs.Service.Made
import CodeOutline.Proofs.Service.Retention
import CodeOutline.Proofs.Service.Pruning
import CodeOutline.Proofs.Service.Repetition
import CodeOutline.Proofs.Text.Percent
import CodeOutline.Proofs.Remote.Content
import CodeOutline.Proofs.Service.Isolation
import CodeOutline.Proofs.Graph.Rows
import CodeOutline.Proofs.Graph.Alone
import CodeOutline.Proofs.Service.Separation
import CodeOutline.Proofs.Service.Failure
import CodeOutline.Proofs.Files.Path
import CodeOutline.Proofs.Files.Plain
import CodeOutline.Proofs.Files.Report
import CodeOutline.Proofs.Service.Filing
import CodeOutline.Proofs.Graph.Lineage
import CodeOutline.Proofs.Graph.Contention
import CodeOutline.Proofs.Service.Upkeep
import CodeOutline.Proofs.Report.Omission
import CodeOutline.Proofs.Service.Statements
import CodeOutline.Proofs.Graph.Completion
import CodeOutline.Proofs.Graph.Emptying
import CodeOutline.Proofs.Graph.Query
import CodeOutline.Proofs.Ingest.Delivery
import CodeOutline.Proofs.Service.Batch
import CodeOutline.Proofs.Service.Passage
import CodeOutline.Proofs.Java.Walk
import CodeOutline.Proofs.Java.PackageLine
import CodeOutline.Proofs.Java.Token
import CodeOutline.Proofs.Java.Run
import CodeOutline.Proofs.Java.Namespace
import CodeOutline.Proofs.Java.Reading
import CodeOutline.Proofs.Text.Lines
import CodeOutline.Proofs.Java.DocComment
import CodeOutline.Proofs.Java.BlockComment
import CodeOutline.Proofs.Java.Skeleton
import CodeOutline.Proofs.Java.SkeletonTokens
import CodeOutline.Proofs.Java.SkeletonHeading
import CodeOutline.Proofs.Java.RoundTrip
import CodeOutline.Proofs.Remote.Traversal
import CodeOutline.Proofs.Config.Validity
import CodeOutline.Proofs.Remote.Encoded
import CodeOutline.Proofs.Remote.ContentAddress
import CodeOutline.Proofs.Files.Succession
import CodeOutline.Proofs.Files.Containment
import CodeOutline.Proofs.Report.Reading
import CodeOutline.Proofs.Remote.Authorization
import CodeOutline.Proofs.Service.Authorization
