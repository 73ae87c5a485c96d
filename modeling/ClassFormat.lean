import ClassFormat.ClassFile.Encode
import ClassFormat.Main
import ClassFormat.Proofs.Sequential
import ClassFormat.Proofs.Readers
import ClassFormat.Proofs.NestingRoom
import ClassFormat.Proofs.Truncation
import ClassFormat.Proofs.Spelling
import ClassFormat.Proofs.Format
import ClassFormat.Proofs.ConstantFormat
import ClassFormat.Proofs.PoolFormat
import ClassFormat.Proofs.AttributeFormat
import ClassFormat.Proofs.RoundTrip
import ClassFormat.Proofs.SlotLayout
import ClassFormat.Proofs.KindAndName
import ClassFormat.Proofs.PayloadLength
import ClassFormat.Proofs.Fault
import ClassFormat.Proofs.Blame
import ClassFormat.Proofs.StartPlace
import ClassFormat.Proofs.ReadsInRange
import ClassFormat.Proofs.PoolsInRange
import ClassFormat.Proofs.QuestionsInRange
import ClassFormat.Proofs.TextSpellings
import ClassFormat.Proofs.ReportLines
import ClassFormat.Proofs.ReportOutcome
import ClassFormat.Proofs.Enumeration
import ClassFormat.Proofs.Resolution
import ClassFormat.Proofs.Account
import ClassFormat.Proofs.PoolLog
import ClassFormat.Proofs.AttributeLog
import ClassFormat.Proofs.ClassLog
import ClassFormat.Proofs.CursorRuns
import ClassFormat.Proofs.EntryPoint
import ClassFormat.Proofs.UniqueReading
import ClassFormat.Proofs.AttributeText
import ClassFormat.Proofs.NestingDepth
