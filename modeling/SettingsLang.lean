import SettingsLang.Block
import SettingsLang.Block.Decode
import SettingsLang.Block.Evaluate
import SettingsLang.Block.Outline
import SettingsLang.Command
import SettingsLang.CommandLine
import SettingsLang.CommandLine.Completion
import SettingsLang.CommandLine.Guidance
import SettingsLang.CommandLine.Reading
import SettingsLang.CommandLine.Run
import SettingsLang.CommitMode
import SettingsLang.Context
import SettingsLang.Context.Steps
import SettingsLang.Decimal.Binary64
import SettingsLang.Decimal.Digits
import SettingsLang.Decimal.Numeral
import SettingsLang.Decimal.Shortest
import SettingsLang.Environment
import SettingsLang.Failure
import SettingsLang.Files
import SettingsLang.Files.Disk
import SettingsLang.Files.Memory
import SettingsLang.Files.Path
import SettingsLang.Generation
import SettingsLang.Level
import SettingsLang.Matcher
import SettingsLang.NamePath
import SettingsLang.Proofs.Declaration
import SettingsLang.Proofs.OpenLevels
import SettingsLang.Proofs.Persistence
import SettingsLang.Proofs.Restoration
import SettingsLang.Proofs.SinkMap
import SettingsLang.Rule
import SettingsLang.Scalar
import SettingsLang.Script
import SettingsLang.Session
import SettingsLang.Settings
import SettingsLang.Sink
import SettingsLang.Text.Blank
import SettingsLang.Text.Hidden
import SettingsLang.Text.Lines
import SettingsLang.Text.Shown
import SettingsLang.Text.Word
import SettingsLang.Toml.Bare
import SettingsLang.Toml.Document
import SettingsLang.Toml.Misfit
import SettingsLang.Toml.Quote
import SettingsLang.Toml.Table
import SettingsLang.Toml.Text
import SettingsLang.Toml.Value
import SettingsLang.Main
import SettingsLang.Proofs.Stream
import SettingsLang.Proofs.Consistency
import SettingsLang.Proofs.Occurrence
import SettingsLang.Proofs.Place
import SettingsLang.Proofs.Reflection
import SettingsLang.Proofs.Simulation
import SettingsLang.Proofs.Meaning
import SettingsLang.Proofs.WellNested
import SettingsLang.Proofs.Lockstep
import SettingsLang.Proofs.Children
import SettingsLang.Proofs.Cutoff
import SettingsLang.Proofs.Repeats
import SettingsLang.Proofs.SendingOnce
import SettingsLang.Proofs.RulesFirst
import SettingsLang.Proofs.Refusal
import SettingsLang.Proofs.Rendering
import SettingsLang.Proofs.ReadingBack
import SettingsLang.Proofs.History
import SettingsLang.Proofs.Chronicle
import SettingsLang.Proofs.Standing
import SettingsLang.Proofs.Grammar
import SettingsLang.Proofs.DistinctKeys
import SettingsLang.Proofs.Outcome
import SettingsLang.Proofs.Decoding
import SettingsLang.Proofs.Storage
import SettingsLang.Proofs.Generating
import SettingsLang.Proofs.Counting
import SettingsLang.Proofs.Layers
import SettingsLang.Proofs.Quoting
import SettingsLang.Proofs.Showing
import SettingsLang.Generation.Steps
import SettingsLang.Proofs.Guarding
import SettingsLang.Proofs.Writing
import SettingsLang.Proofs.AllOrNothing
import SettingsLang.Proofs.Retelling
import SettingsLang.Proofs.Exchange
import SettingsLang.Proofs.Tally
import SettingsLang.Proofs.Drawing
import SettingsLang.Proofs.Expansion
import SettingsLang.Proofs.Digits
import SettingsLang.Proofs.Rounding
import SettingsLang.Proofs.Interval
import SettingsLang.Proofs.Grids
import SettingsLang.Proofs.Numerals
import SettingsLang.Proofs.Literals
import SettingsLang.Proofs.OneList
