import JavaOutline.CommandLine.Run
import JavaOutline.Config.Load
import JavaOutline.Decl.Render
import JavaOutline.Files.Ignore
import JavaOutline.Java.Parse
import JavaOutline.Main
import JavaOutline.Project.Session
import JavaOutline.Session.Run
import JavaOutline.Tree.Outline
import JavaOutline.Proofs.Layout.Sink
import JavaOutline.Proofs.Doc.Written
import JavaOutline.Proofs.Doc.RoundTrip
import JavaOutline.Proofs.Graph.Naming
import JavaOutline.Proofs.Session.Registration
import JavaOutline.Proofs.Graph.Freezing
import JavaOutline.Proofs.Session.Freezing
import JavaOutline.Proofs.Session.References
import JavaOutline.Proofs.Session.Failures
import JavaOutline.Proofs.Session.Queries
import JavaOutline.Proofs.Session.Ownership
import JavaOutline.Proofs.Session.Index
import JavaOutline.Proofs.Session.Sources
import JavaOutline.Proofs.Doc.TagLines
import JavaOutline.Proofs.Project.Accounting
import JavaOutline.Proofs.Project.Loading
import JavaOutline.Proofs.Text.Slice
import JavaOutline.Proofs.Tree.Declarations
import JavaOutline.Proofs.Tree.Documentation
import JavaOutline.Proofs.Tree.HeaderComments
import JavaOutline.Proofs.Tree.Omission
import JavaOutline.Proofs.Tree.Texts
import JavaOutline.Proofs.Decl.Blocks
import JavaOutline.Proofs.Layout.Dedent
import JavaOutline.Proofs.Layout.LogicalLines
import JavaOutline.Proofs.Tree.Bodies
import JavaOutline.Proofs.Project.Undecodable
import JavaOutline.Proofs.Doc.Partition
import JavaOutline.Proofs.Doc.Rereading
import JavaOutline.Proofs.Files.Glob
import JavaOutline.Proofs.Files.Ignore
import JavaOutline.Proofs.Decl.Bodies
import JavaOutline.Proofs.Files.Inheritance
import JavaOutline.Proofs.Files.Selection
import JavaOutline.Proofs.Doc.NamedParameters
import JavaOutline.Proofs.Doc.Quoting
import JavaOutline.Proofs.Config.Layers
