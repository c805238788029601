import KnownAnswer.Ccm.Definition
import KnownAnswer.Ccm.Guarded
import KnownAnswer.Main
import KnownAnswer.Proofs.Sealing
import KnownAnswer.Proofs.Workers
import KnownAnswer.Proofs.AnyCipher
import KnownAnswer.Proofs.Admission
import KnownAnswer.Proofs.Gating
import KnownAnswer.Proofs.Separation
import KnownAnswer.Proofs.Tampering
import KnownAnswer.Proofs.ExitCode
import KnownAnswer.Proofs.Arrangement
import KnownAnswer.Proofs.Judgement
import KnownAnswer.Proofs.Opening
import KnownAnswer.Proofs.Isolation
import KnownAnswer.Proofs.Hexadecimal
import KnownAnswer.Proofs.Pasting
import KnownAnswer.Proofs.LineFeeds
import KnownAnswer.Proofs.ReportLines
import KnownAnswer.Proofs.Strictness
import KnownAnswer.Proofs.Decoding
import KnownAnswer.Proofs.FullWriter
import KnownAnswer.Proofs.Spelling
import KnownAnswer.Proofs.Readability
import KnownAnswer.Proofs.CounterLimit
import KnownAnswer.Proofs.Registry
import KnownAnswer.Proofs.Operations
import KnownAnswer.Proofs.Guards
import KnownAnswer.Proofs.Refusal
