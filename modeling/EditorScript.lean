import EditorScript.Command.Arguments
import EditorScript.Command.Outcome
import EditorScript.Config.Basic
import EditorScript.Config.File
import EditorScript.Configured
import EditorScript.Emission.Preserved
import EditorScript.Emission.Statement
import EditorScript.Emission.Style
import EditorScript.Emission.Template
import EditorScript.Emission.Variable
import EditorScript.Extraction.Header
import EditorScript.Extraction.Member
import EditorScript.Extraction.OuterCode
import EditorScript.Extraction.Outline
import EditorScript.Extraction.Settings
import EditorScript.File.Failure
import EditorScript.File.Path
import EditorScript.File.Utf8
import EditorScript.Forest.Edit
import EditorScript.Imported.Absorption
import EditorScript.Imported.File
import EditorScript.Imported.Folder
import EditorScript.Json.Parser
import EditorScript.Json.Printer
import EditorScript.Json.Value
import EditorScript.Main
import EditorScript.Model.Catalogue
import EditorScript.Model.Element
import EditorScript.Model.Project
import EditorScript.Model.Vocabulary
import EditorScript.Number.Binary64
import EditorScript.Number.Layout
import EditorScript.Number.Reading
import EditorScript.Number.Shortest
import EditorScript.Pattern.Basic
import EditorScript.Pattern.Combinators
import EditorScript.Persistence.Changes
import EditorScript.Persistence.Checked
import EditorScript.Persistence.Numeral
import EditorScript.Persistence.Reading
import EditorScript.Persistence.Writing
import EditorScript.Recovery.Body
import EditorScript.Recovery.Boilerplate
import EditorScript.Recovery.Call
import EditorScript.Recovery.Container
import EditorScript.Recovery.Gate
import EditorScript.Recovery.Statement
import EditorScript.Recovery.Step
import EditorScript.Recovery.StyleExpression
import EditorScript.Service.Response
import EditorScript.Service.Route
import EditorScript.Session.Basic
import EditorScript.Session.Change
import EditorScript.Source.Block
import EditorScript.Source.Field
import EditorScript.Source.Literal
import EditorScript.Source.Marker
import EditorScript.Source.Order
import EditorScript.Source.Quoted
import EditorScript.Source.Scan
import EditorScript.Text.Basic
import EditorScript.Text.Indentation
import EditorScript.Text.Uppercase
import EditorScript.Text.WordRanges
import EditorScript.Proofs.CodeMode
import EditorScript.Proofs.Nesting
import EditorScript.Proofs.Lines
import EditorScript.Proofs.Margin
import EditorScript.Proofs.NeutralPiece
import EditorScript.Proofs.ClosedStatement
import EditorScript.Proofs.ClosedElement
import EditorScript.Proofs.ClosedSource
import EditorScript.Proofs.ClassBlock
import EditorScript.Proofs.Reaches
import EditorScript.Proofs.Sketch
import EditorScript.Proofs.PatternRun
import EditorScript.Proofs.CallRun
import EditorScript.Proofs.DigitText
import EditorScript.Proofs.StyleReading
import EditorScript.Proofs.StyleLook
import EditorScript.Proofs.CallReading
import EditorScript.Proofs.DisplayReading
import EditorScript.Proofs.ContainerReading
import EditorScript.Proofs.CodeLine
import EditorScript.Proofs.Avoids
import EditorScript.Proofs.Plain
import EditorScript.Proofs.ShapeTable
import EditorScript.Proofs.NearestNumber
import EditorScript.Proofs.ShortestNumber
import EditorScript.Proofs.NumberReading
import EditorScript.Proofs.ReadBack
import EditorScript.Proofs.ShownStatement
import EditorScript.Proofs.ShownElement
import EditorScript.Proofs.BlockBetween
import EditorScript.Proofs.Everywhere
import EditorScript.Proofs.Place
import EditorScript.Proofs.Relocation
import EditorScript.Proofs.Writable
import EditorScript.Proofs.PlacedEdit
import EditorScript.Proofs.SessionEffect
import EditorScript.Proofs.SessionFrame
import EditorScript.Proofs.AbsorbedFields
import EditorScript.Proofs.KeptMembers
import EditorScript.Proofs.SessionRun
import EditorScript.Proofs.UnknownElements
import EditorScript.Proofs.TakenElement
import EditorScript.Proofs.SiblingOrder
import EditorScript.Proofs.StyleArgument
import EditorScript.Proofs.ContainerEnd
import EditorScript.Proofs.ReadContainers
import EditorScript.Proofs.ReadLines
import EditorScript.Proofs.ShownArgument
import EditorScript.Proofs.ShownDisplay
import EditorScript.Proofs.JsonNumber
import EditorScript.Proofs.JsonText
import EditorScript.Proofs.SavedElement
import EditorScript.Proofs.SavedProject
import EditorScript.Proofs.ClassLines
import EditorScript.Proofs.DeclaredOnce
import EditorScript.Proofs.Dedenting
import EditorScript.Proofs.KindSigns
import EditorScript.Proofs.LineStarts
import EditorScript.Proofs.MemberExtent
import EditorScript.Proofs.MemberSteps
import EditorScript.Proofs.MovedLines
import EditorScript.Proofs.MovedRecovery
import EditorScript.Proofs.RawBody
import EditorScript.Proofs.GeneratedAnswers
import EditorScript.Proofs.WordsInLines
import EditorScript.Proofs.Tiling
import EditorScript.Proofs.CommentedSource
import EditorScript.Proofs.StoppedSearch
import EditorScript.Proofs.WindowTexts
import EditorScript.Proofs.OtherScripts
import EditorScript.Proofs.BlockText
import EditorScript.Proofs.OpeningBrace
import EditorScript.Proofs.Guards
import EditorScript.Proofs.CodeSteps
import EditorScript.Proofs.FoldoutGuard
import EditorScript.Proofs.ClickBlock
import EditorScript.Proofs.TabSwitch
import EditorScript.Proofs.TabLabels
import EditorScript.Proofs.ContainerLabels
import EditorScript.Proofs.ButtonRoundTrip
import EditorScript.Proofs.OuterTypes
import EditorScript.Proofs.OuterBraces
import EditorScript.Proofs.ElementSources
import EditorScript.Proofs.PreservedCode
import EditorScript.Proofs.BalancedBlocks
import EditorScript.Proofs.LiteralScan
import EditorScript.Proofs.LiteralMeaning
import EditorScript.Proofs.QuotedInLine
import EditorScript.Proofs.LineComments
import EditorScript.Proofs.LinewiseScan
import EditorScript.Proofs.MarginLaws
import EditorScript.Proofs.MovedTexts
import EditorScript.Proofs.UnbrokenCode
import EditorScript.Proofs.ElementLayout
import EditorScript.Proofs.MovedElements
import EditorScript.Proofs.StyleRoundTrip
import EditorScript.Proofs.WrittenVariables
import EditorScript.Proofs.ReadDeclarations
import EditorScript.Proofs.FieldLists
import EditorScript.Proofs.BaseList
import EditorScript.Proofs.ParentSearch
import EditorScript.Proofs.SettledForest
import EditorScript.Proofs.WrittenBlock
import EditorScript.Proofs.CutMembers
