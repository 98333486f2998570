import EsilLowering.Main
import EsilLowering.Session
import EsilLowering.Proofs.Preservation
import EsilLowering.Proofs.Strictness
import EsilLowering.Proofs.Concatenation
import EsilLowering.Proofs.Conservation
import EsilLowering.Proofs.Recovery
import EsilLowering.Proofs.Frame
import EsilLowering.Proofs.Faults
import EsilLowering.Proofs.Noninterference
import EsilLowering.Proofs.Provenance
import EsilLowering.Proofs.Coherence
import EsilLowering.Proofs.Registrations
import EsilLowering.Proofs.UnknownPieces
import EsilLowering.Proofs.NameClashes
import EsilLowering.Proofs.NullOperands
import EsilLowering.Proofs.Readings
import EsilLowering.Proofs.Sessions
import EsilLowering.Proofs.DefaultArchitecture
import EsilLowering.Proofs.Transcripts
import EsilLowering.Proofs.Arguments
import EsilLowering.Proofs.StrictRuns
import EsilLowering.Proofs.Denotation
import EsilLowering.Proofs.Expansion
import EsilLowering.Proofs.FileRuns
import EsilLowering.Proofs.JsonRuns
import EsilLowering.Proofs.DecimalTexts
import EsilLowering.Proofs.InstructionTexts
import EsilLowering.Proofs.InputRuns
import EsilLowering.Proofs.LiberalNumerals
import EsilLowering.Proofs.Widths
import EsilLowering.Proofs.HexadecimalTexts
import EsilLowering.Proofs.Log
import EsilLowering.Proofs.DocumentNumbers
