import Stencil.Main
import Stencil.Template
import Stencil.Proofs.Choice
import Stencil.Proofs.Shapes
import Stencil.Proofs.Agreement
import Stencil.Proofs.Generations
import Stencil.Proofs.Registration
import Stencil.Proofs.Placing
import Stencil.Proofs.Remembering
import Stencil.Proofs.Sites
import Stencil.Proofs.Forms
import Stencil.Proofs.Lambdas
import Stencil.Proofs.Scopes
import Stencil.Proofs.Calls
import Stencil.Proofs.GivingUp
import Stencil.Proofs.EarlyChoices
import Stencil.Proofs.Together
import Stencil.Proofs.TreeAndCode
import Stencil.Proofs.Composition
import Stencil.Proofs.RecursionLimit
import Stencil.Proofs.CanonicalText
import Stencil.Proofs.Nodes
import Stencil.Proofs.ParserRules
import Stencil.Proofs.Pieces
import Stencil.Proofs.Reading
import Stencil.Proofs.RoundTrip
import Stencil.Proofs.Surroundings
import Stencil.Proofs.Standing
import Stencil.Proofs.ChainArguments
import Stencil.Proofs.RootEvents
import Stencil.Proofs.RootSelector
import Stencil.Proofs.Cancellation
import Stencil.Proofs.Lines
import Stencil.Proofs.Marks
import Stencil.Proofs.SignedLiterals
import Stencil.Proofs.WellShaped
import Stencil.Proofs.Relocation
import Stencil.Proofs.Formatting
import Stencil.Proofs.PlainTrees
import Stencil.Proofs.Likeness
import Stencil.Proofs.Bodies
import Stencil.Proofs.Outcome
import Stencil.Proofs.Respect
import Stencil.Proofs.BuiltinsRespect
import Stencil.Proofs.Likewise
import Stencil.Proofs.Congruence
import Stencil.Proofs.Racing
import Stencil.Proofs.Splitting
import Stencil.Proofs.TagEnds
import Stencil.Proofs.Segments
import Stencil.Proofs.ProblemSpans
import Stencil.Proofs.SiteMaps
import Stencil.Proofs.Retracing
import Stencil.Proofs.OtherSites
import Stencil.Proofs.TagSites
import Stencil.Proofs.Seams
import Stencil.Proofs.NamedArguments
import Stencil.Proofs.BoundTypes
import Stencil.Proofs.Destinations
import Stencil.Proofs.Ranking
import Stencil.Proofs.Findings
import Stencil.Proofs.ConvertedTexts
import Stencil.Proofs.Precedence
import Stencil.Proofs.Runs
import Stencil.Proofs.PathShape
import Stencil.Proofs.Budget
import Stencil.Proofs.MissingOperands
import Stencil.Proofs.Brackets
import Stencil.Proofs.Nesting
import Stencil.Proofs.Misses
import Stencil.Proofs.StandardCalls
import Stencil.Proofs.SplitAndJoin
import Stencil.Proofs.WholeNumbers
import Stencil.Proofs.Lossless
import Stencil.Proofs.LineLookup
