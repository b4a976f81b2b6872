import CcdController.Text.CharClass
import CcdController.Text.Quoted
import CcdController.Text.Numeral
import CcdController.Text.Line
import CcdController.Log
import CcdController.Pins
import CcdController.Word
import CcdController.Mode
import CcdController.Packing
import CcdController.Command
import CcdController.Dump
import CcdController.MemoryImage
import CcdController.Assembly
import CcdController.Program.Listing
import CcdController.Program.Upload
import CcdController.Status.Stream
import CcdController.Link
import CcdController.Session.Step
import CcdController.Cli.Run
import CcdController.Main
import CcdController.Proofs.ModeTrace
import CcdController.Proofs.CompileOutcome
import CcdController.Proofs.StatusDecoding
import CcdController.Proofs.EnvelopeReading
import CcdController.Proofs.SessionTimeline
import CcdController.Proofs.SessionFraming
import CcdController.Proofs.CommandReading
import CcdController.Proofs.CommandStream
import CcdController.Proofs.DumpReading
import CcdController.Proofs.UploadedMemory
import CcdController.Proofs.DumpGrammar
import CcdController.Proofs.LineReading
import CcdController.Proofs.UploadOrder
import CcdController.Proofs.PatternBracket
import CcdController.Proofs.TraceRounds
import CcdController.Proofs.TraceBudget
import CcdController.Proofs.Relocation
import CcdController.Proofs.DumpInstructions
import CcdController.Proofs.CommandRecognition
import CcdController.Proofs.WriteSide
import CcdController.Proofs.UnknownStatus
import CcdController.Proofs.ImageStart
import CcdController.Proofs.LoopUnrolling
import CcdController.Proofs.LastWrites
import CcdController.Proofs.Numerals
import CcdController.Proofs.SourceListing
import CcdController.Proofs.FaithfulListing
import CcdController.Proofs.StateBuilding
import CcdController.Proofs.BinaryListing
import CcdController.Proofs.AllOrNothing
import CcdController.Proofs.BuildingRuns
import CcdController.Proofs.PackingLaw
