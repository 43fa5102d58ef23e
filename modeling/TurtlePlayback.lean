import TurtlePlayback.Main
import TurtlePlayback.Script.Boundary
import TurtlePlayback.Session.Edit
import TurtlePlayback.Proofs.EngineCalls
import TurtlePlayback.Proofs.ReferenceAccounts
import TurtlePlayback.Proofs.PlayerMoves
import TurtlePlayback.Proofs.PlayerReferences
import TurtlePlayback.Proofs.FrameRequests
import TurtlePlayback.Proofs.InstructionEffects
import TurtlePlayback.Proofs.ScopeStores
import TurtlePlayback.Proofs.ExpressionCode
import TurtlePlayback.Proofs.ProgramEvaluation
import TurtlePlayback.Proofs.ExpressionHeights
import TurtlePlayback.Proofs.ParsedStatements
import TurtlePlayback.Proofs.HighestExpressions
import TurtlePlayback.Proofs.EnvironmentOwner
import TurtlePlayback.Proofs.ChangeNotices
import TurtlePlayback.Proofs.BatchMarks
import TurtlePlayback.Proofs.DefiniteAssignment
import TurtlePlayback.Proofs.StatementStacks
import TurtlePlayback.Proofs.EnvironmentSafety
import TurtlePlayback.Proofs.ScriptGrammar
import TurtlePlayback.Proofs.GrammarSoundness
import TurtlePlayback.Proofs.GrammarCompleteness
import TurtlePlayback.Proofs.ParsedScripts
import TurtlePlayback.Proofs.FrameSuccessors
import TurtlePlayback.Proofs.SlotOwnership
import TurtlePlayback.Proofs.LivingImages
import TurtlePlayback.Proofs.RecordedDrawings
import TurtlePlayback.Proofs.UndisturbedPlayback
import TurtlePlayback.Proofs.ElapsedTime
import TurtlePlayback.Proofs.Conversations
import TurtlePlayback.Proofs.CountedReferences
import TurtlePlayback.Proofs.IsolatedEnvironments
import TurtlePlayback.Proofs.StoppedFrames
import TurtlePlayback.Proofs.AnsweredRequests
import TurtlePlayback.Proofs.ClockRuns
import TurtlePlayback.Proofs.HeadlessTime
import TurtlePlayback.Proofs.PlayedScenes
import TurtlePlayback.Proofs.RestartedPlayback
import TurtlePlayback.Proofs.TextPlaces
import TurtlePlayback.Proofs.LexemeTexts
import TurtlePlayback.Proofs.LexedTexts
import TurtlePlayback.Proofs.RunParts
import TurtlePlayback.Proofs.ErrorPlaces
import TurtlePlayback.Proofs.SitedErrors
import TurtlePlayback.Proofs.PixelBytes
import TurtlePlayback.Proofs.PremultipliedPixels
import TurtlePlayback.Proofs.PixelSurfaceRuns
import TurtlePlayback.Proofs.StepOutputs
import TurtlePlayback.Proofs.AnswerReports
import TurtlePlayback.Proofs.PlayerStats
import TurtlePlayback.Proofs.RepeatedReports
import TurtlePlayback.Proofs.ViewportSizes
import TurtlePlayback.Proofs.ScopedPrograms
import TurtlePlayback.Proofs.VariableSlots
import TurtlePlayback.Proofs.NewestLines
import TurtlePlayback.Proofs.ChainedFrames
import TurtlePlayback.Proofs.ReportedRuns
import TurtlePlayback.Proofs.LatestCompilation
import TurtlePlayback.Proofs.CreditedLines
import TurtlePlayback.Proofs.PixelAddresses
import TurtlePlayback.Proofs.PixelRatios
import TurtlePlayback.Proofs.ValidConfigs
import TurtlePlayback.Proofs.PlaybackSpeeds
import TurtlePlayback.Proofs.ContainedCode
import TurtlePlayback.Proofs.RoundedMagnitudes
import TurtlePlayback.Proofs.RoundedDoubles
import TurtlePlayback.Proofs.PackedDoubles
import TurtlePlayback.Proofs.RoundedArithmetic
import TurtlePlayback.Proofs.UnboundedDoubles
import TurtlePlayback.Proofs.ExactRemainders
import TurtlePlayback.Proofs.DoubleClocks
import TurtlePlayback.Proofs.OverflowingTicks
import TurtlePlayback.Proofs.IndexedParsers
import TurtlePlayback.Proofs.IndexedExpressions
import TurtlePlayback.Proofs.IndexedScripts
import TurtlePlayback.Proofs.IndexedTokens
import TurtlePlayback.Proofs.ParsingEnds
