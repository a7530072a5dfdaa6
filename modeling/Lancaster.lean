import Lancaster.Main
import Lancaster.Proofs.Buckets
import Lancaster.Stemmer.Service
import Lancaster.Proofs.Descent
import Lancaster.Proofs.GreedyTrace
import Lancaster.Proofs.BundledRules
import Lancaster.Proofs.SourceLayout
import Lancaster.Proofs.Iteration
import Lancaster.Proofs.Reading
import Lancaster.Proofs.Recognition
import Lancaster.Proofs.FaultPlaces
import Lancaster.Proofs.Printing
import Lancaster.Proofs.Labels
import Lancaster.Proofs.History
import Lancaster.Proofs.Anchoring
import Lancaster.Proofs.EndlessRuns
import Lancaster.Proofs.NormalForms
import Lancaster.Proofs.Confinement
import Lancaster.Proofs.ConfigHistory
import Lancaster.Proofs.Interleavings
import Lancaster.Proofs.CommandModes
import Lancaster.Proofs.StemLetters
import Lancaster.Proofs.CommandLimits
import Lancaster.Proofs.FaultLines
import Lancaster.Proofs.CommandFaults
import Lancaster.Proofs.DeadRules
import Lancaster.Proofs.AmpleLimits
import Lancaster.Proofs.Restarts
import Lancaster.Proofs.IdleRules
import Lancaster.Proofs.WellFormedStems
import Lancaster.Proofs.Concatenation
import Lancaster.Proofs.UnreadText
import Lancaster.Proofs.LetterRuns
import Lancaster.Proofs.TextFiles
import Lancaster.Proofs.RuleFiles
import Lancaster.Proofs.SpelledSettings
import Lancaster.Proofs.CheckedSettings
import Lancaster.Proofs.RecentWords
import Lancaster.Proofs.MemoAccounts
import Lancaster.Proofs.WordFiles
import Lancaster.Proofs.TraceLines
import Lancaster.Proofs.TableOrder
import Lancaster.Proofs.TopicNames
