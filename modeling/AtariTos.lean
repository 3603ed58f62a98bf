import AtariTos.Main
import AtariTos.Settings
import AtariTos.Proofs.AreaChanges
import AtariTos.Proofs.Confinement
import AtariTos.Proofs.HeapPlacement
import AtariTos.Proofs.TrapFootprint
import AtariTos.Proofs.LastingAreas
import AtariTos.Proofs.CallFailures
import AtariTos.Proofs.HiddenMemory
import AtariTos.Proofs.CallSecrecy
import AtariTos.Proofs.MemoryReads
import AtariTos.Proofs.RegisterBanks
import AtariTos.Proofs.FileContents
import AtariTos.Proofs.SupervisorCalls
import AtariTos.Proofs.FileOperations
import AtariTos.Proofs.FileSteps
import AtariTos.Proofs.FileRefinement
import AtariTos.Proofs.HeapCalls
import AtariTos.Proofs.BigEndian
import AtariTos.Proofs.FlatMemory
import AtariTos.Proofs.LoadedContents
import AtariTos.Proofs.LoadRefusals
import AtariTos.Proofs.FixedAreas
import AtariTos.Proofs.ProcessorRuns
import AtariTos.Proofs.ProgramEnd
import AtariTos.Proofs.SuccessivePrograms
import AtariTos.Proofs.StringLimits
import AtariTos.Proofs.DirectoryText
import AtariTos.Proofs.SeekOutcomes
import AtariTos.Proofs.SupervisorFaults
import AtariTos.Proofs.PathResolution
import AtariTos.Proofs.NewDirectories
import AtariTos.Proofs.FileCreation
import AtariTos.Proofs.LexicalPaths
import AtariTos.Proofs.RelocatedImages
import AtariTos.Proofs.SuccessiveHeapCalls
import AtariTos.Proofs.ByteAccesses
import AtariTos.Proofs.StringScans
import AtariTos.Proofs.ConsoleLineCalls
import AtariTos.Proofs.RegisterCells
import AtariTos.Proofs.PrivilegeSwitches
import AtariTos.Proofs.CallListings
import AtariTos.Proofs.BasepageCodec
import AtariTos.Proofs.PackedTimes
import AtariTos.Proofs.HandleHistories
import AtariTos.Proofs.HeapAlignment
