import FrameScan.FileSystem.Tree
import FrameScan.Main
import FrameScan.Proofs.Bookkeeping
import FrameScan.Proofs.LimitedOutput
import FrameScan.Proofs.Trail
import FrameScan.Proofs.Trace
import FrameScan.Proofs.Independence
import FrameScan.Proofs.ProcessStream
import FrameScan.Proofs.Opening
import FrameScan.Proofs.HeaderLine
import FrameScan.Proofs.Readback
import FrameScan.Proofs.Coverage
import FrameScan.Proofs.ReadOffsets
import FrameScan.Proofs.Alignment
import FrameScan.Proofs.ListedText
import FrameScan.Proofs.FaultyTables
import FrameScan.Proofs.CommandLine
import FrameScan.Proofs.Filtering
import FrameScan.Proofs.Stride
import FrameScan.Proofs.DigitStrings
import FrameScan.Proofs.Trimming
import FrameScan.Proofs.AddressForm
import FrameScan.Proofs.ListedLines
import FrameScan.Proofs.KernelParts
import FrameScan.Proofs.Accounting
import FrameScan.Proofs.WrittenMappings
import FrameScan.Proofs.PathNames
import FrameScan.Proofs.InvertedRanges
import FrameScan.Proofs.SplitSpans
import FrameScan.Proofs.WordFields
import FrameScan.Proofs.Boundaries
import FrameScan.Proofs.TableReads
import FrameScan.Proofs.Knobs
import FrameScan.Proofs.Selectors
import FrameScan.Proofs.FlagNames
