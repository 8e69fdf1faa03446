import MachSynth.Python
import MachSynth.Regex
import MachSynth.Matching
import MachSynth.Cut
import MachSynth.Synthesizer
import MachSynth.Driver
import MachSynth.Provenance
import MachSynth.Guards
import MachSynth.IpcMapper
import MachSynth.Signatures
import MachSynth.Scan
import MachSynth.Tree
import MachSynth.Run
import MachSynth.Audit
