import ResponseModel.Coercion
import ResponseModel.Condition
import ResponseModel.Config
import ResponseModel.Declarations
import ResponseModel.Document.Basic
import ResponseModel.Document.Library
import ResponseModel.Document.Printer
import ResponseModel.Document.Reach
import ResponseModel.Document.Resolved
import ResponseModel.Error
import ResponseModel.Inference
import ResponseModel.Literal
import ResponseModel.Model
import ResponseModel.ModelType
import ResponseModel.Number.Binary64
import ResponseModel.Number.Numeral
import ResponseModel.Number.Shortest
import ResponseModel.Ordered
import ResponseModel.Path
import ResponseModel.Pattern.Basic
import ResponseModel.Pattern.CharSet
import ResponseModel.Pattern.Engine
import ResponseModel.Pattern.Parse
import ResponseModel.Pattern.Standard
import ResponseModel.Proofs.Agreement
import ResponseModel.Proofs.BuildOrder
import ResponseModel.Proofs.Building
import ResponseModel.Proofs.CanonicalConditions
import ResponseModel.Proofs.CanonicalTypeSets
import ResponseModel.Proofs.Coercions
import ResponseModel.Proofs.Collection
import ResponseModel.Proofs.CommonRefinements
import ResponseModel.Proofs.ConcreteShapes
import ResponseModel.Proofs.ConditionDirectives
import ResponseModel.Proofs.Conditions
import ResponseModel.Proofs.Continuation
import ResponseModel.Proofs.CustomScalars
import ResponseModel.Proofs.Dependencies
import ResponseModel.Proofs.DocumentOrder
import ResponseModel.Proofs.EnclosedPatterns
import ResponseModel.Proofs.Execution
import ResponseModel.Proofs.FieldTrees
import ResponseModel.Proofs.FiniteDoubles
import ResponseModel.Proofs.FragmentDefinitions
import ResponseModel.Proofs.FragmentOrder
import ResponseModel.Proofs.FragmentVariables
import ResponseModel.Proofs.FragmentWalks
import ResponseModel.Proofs.Inclusion
import ResponseModel.Proofs.Independence
import ResponseModel.Proofs.Inhabitants
import ResponseModel.Proofs.Inheritance
import ResponseModel.Proofs.InlinedSpreads
import ResponseModel.Proofs.Listing
import ResponseModel.Proofs.ListingOrder
import ResponseModel.Proofs.Marks
import ResponseModel.Proofs.Matching
import ResponseModel.Proofs.ModelPaths
import ResponseModel.Proofs.ModelTrees
import ResponseModel.Proofs.Models
import ResponseModel.Proofs.Numerals
import ResponseModel.Proofs.Outlines
import ResponseModel.Proofs.PathTexts
import ResponseModel.Proofs.PatternGrammar
import ResponseModel.Proofs.PatternTokens
import ResponseModel.Proofs.PlainFragments
import ResponseModel.Proofs.PossibleTypes
import ResponseModel.Proofs.ReachedFragments
import ResponseModel.Proofs.Recursion
import ResponseModel.Proofs.Redeclaration
import ResponseModel.Proofs.Refinement
import ResponseModel.Proofs.RepeatedSelections
import ResponseModel.Proofs.Repetitions
import ResponseModel.Proofs.RequestText
import ResponseModel.Proofs.Resolution
import ResponseModel.Proofs.RevisitingSearch
import ResponseModel.Proofs.Rewriting
import ResponseModel.Proofs.Rounds
import ResponseModel.Proofs.ShapePaths
import ResponseModel.Proofs.SiblingShapes
import ResponseModel.Proofs.SpreadFragments
import ResponseModel.Proofs.Strengthening
import ResponseModel.Proofs.Success
import ResponseModel.Proofs.Termination
import ResponseModel.Proofs.Trees
import ResponseModel.Proofs.TypeOrder
import ResponseModel.Proofs.TypeSets
import ResponseModel.Proofs.TypeTables
import ResponseModel.Proofs.TypewiseCollection
import ResponseModel.Proofs.UsedDeclarations
import ResponseModel.Proofs.Uses
import ResponseModel.Proofs.VariableTypes
import ResponseModel.Proofs.WholeNames
import ResponseModel.Schema.Basic
import ResponseModel.Schema.Introspection
import ResponseModel.Schema.Lookup
import ResponseModel.Shape.Basic
import ResponseModel.Shape.Build
import ResponseModel.Shape.Collection
import ResponseModel.Shape.Narrowing
import ResponseModel.Shape.Navigation
import ResponseModel.Text.CaseFold
import ResponseModel.Text.Category
import ResponseModel.Text.CharRange
import ResponseModel.Text.Quoted
import ResponseModel.Text.StringLiteral
import ResponseModel.Text.Unprintable
import ResponseModel.Text.WhiteSpace
import ResponseModel.Text.WordChar
import ResponseModel.Trace
import ResponseModel.TypeRef
import ResponseModel.TypeSet
import ResponseModel.Value
