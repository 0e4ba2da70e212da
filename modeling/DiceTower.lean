import DiceTower.Text.Basic
import DiceTower.Text.Digits
import DiceTower.Number.Signed64
import DiceTower.Dice.Expression
import DiceTower.Dice.Notation
import DiceTower.Dice.Parse
import DiceTower.Roll.Basic
import DiceTower.Roll.Roller
import DiceTower.Roll.Script
import DiceTower.Roll.Session
import DiceTower.Roll.Render
import DiceTower.Random.SplitMix
import DiceTower.Random.Xoshiro
import DiceTower.Random.ChaCha
import DiceTower.Random.Face
import DiceTower.Random.Dealer
import DiceTower.Json.Quoted
import DiceTower.Json.Basic
import DiceTower.Roll.Json
import DiceTower.Text.Keyword
import DiceTower.Bot.Command
import DiceTower.Bot.Help
import DiceTower.Bot.Reply
import DiceTower.Bot.Answer
import DiceTower.Settings.Basic
import DiceTower.Bot.Eval
import DiceTower.Number.Binary64
import DiceTower.Toml.Datetime
import DiceTower.Toml.Value
import DiceTower.Toml.Order
import DiceTower.Toml.Plain
import DiceTower.Toml.Quoted
import DiceTower.Toml.Arrange
import DiceTower.Toml.Place
import DiceTower.Toml.Writer
import DiceTower.Text.Utf8
import DiceTower.Toml.Number
import DiceTower.Toml.Token
import DiceTower.Toml.Reader
import DiceTower.Toml.Readable
import DiceTower.Settings.Notice
import DiceTower.Settings.Complete
import DiceTower.Settings.Host
import DiceTower.Settings.Plain
import DiceTower.Settings.Load
import DiceTower.Console
import DiceTower.Main
import DiceTower.Proofs.Text.Words
import DiceTower.Proofs.Notation.Shape
import DiceTower.Proofs.Notation.Classification
import DiceTower.Proofs.Notation.Tokens
import DiceTower.Proofs.Roll.Outcome
import DiceTower.Proofs.Roll.Draws
import DiceTower.Proofs.Text.Spelling
import DiceTower.Proofs.Bot.Grammar
import DiceTower.Proofs.Bot.Readers
import DiceTower.Proofs.Bot.Messages
import DiceTower.Proofs.Roll.Regular
import DiceTower.Proofs.Random.Stream
import DiceTower.Proofs.Bot.Isolation
import DiceTower.Proofs.Text.Cuts
import DiceTower.Proofs.Notation.Cuts
import DiceTower.Proofs.Bot.Broken
import DiceTower.Proofs.Bot.Survival
import DiceTower.Proofs.Random.Fairness
import DiceTower.Proofs.Roll.Unambiguous
import DiceTower.Proofs.Number.ReadBack
import DiceTower.Proofs.Settings.Completion
import DiceTower.Proofs.Toml.Numbers
import DiceTower.Proofs.Toml.Tokens
import DiceTower.Proofs.Toml.Inline
import DiceTower.Proofs.Toml.RoundTrip
import DiceTower.Proofs.Settings.Loading
import DiceTower.Proofs.Toml.Writable
import DiceTower.Proofs.Settings.WriteBack
import DiceTower.Proofs.Roll.GrandTotal
import DiceTower.Proofs.Bot.Rereading
import DiceTower.Proofs.Text.LetterCase
import DiceTower.Proofs.Notation.LetterCase
import DiceTower.Proofs.Roll.LetterCase
import DiceTower.Proofs.Bot.LetterCase
import DiceTower.Proofs.Bot.Outcome
import DiceTower.Proofs.Json.Unambiguous
import DiceTower.Proofs.Console.LineByLine
import DiceTower.Proofs.Console.JsonLines
import DiceTower.Proofs.Settings.RollPrefixes
import DiceTower.Proofs.Notation.LongestMatch
import DiceTower.Proofs.Roll.Choice
import DiceTower.Proofs.Roll.Limits
import DiceTower.Proofs.Bot.Highlights
import DiceTower.Proofs.Notation.Joining
import DiceTower.Proofs.Roll.Replay
import DiceTower.Proofs.Json.Expressions
import DiceTower.Proofs.Settings.Silence
