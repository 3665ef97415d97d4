import Chip8.Capacity
import Chip8.FrontEnd.Command
import Chip8.Log
import Chip8.Scalar

/-!
The speaker: a square wave that is looped while the tone is on.

A host without a sound device still gets a speaker, which is silent.
-/

namespace Chip8.FrontEnd

def sampleRate : Int := 44100

def fullAmplitude : Int := 32767

def defaultFrequency : Int := 440

def defaultVolume {Time : Type} [Scalar Time] : Time :=
  Scalar.ratio 1 4

structure Speaker where
  audible : Bool
  active : Bool
deriving DecidableEq, Repr

namespace Speaker

def mixerCommand : Command :=
  .openMixer sampleRate (-16) 1 512

def silenceRecord : Record :=
  .warning "Audio unavailable, running without sound: no audio device"

def cycle (period amplitude : Int) : List Int :=
  (List.range period.toNat).map fun (sample : Nat) =>
    if (sample : Int) < Int.fdiv period 2 then amplitude else -amplitude

def fits (sample : Int) : Bool :=
  -32768 ≤ sample && sample ≤ 32767

def samples {Time : Type} [Scalar Time] (frequency : Int) (volume : Time) :
    Except Fault (List Int) :=
  if frequency = 0 then .error .divisionByZero
  else do
    let amplitude ← Scalar.integerPart (Scalar.ofInt fullAmplitude * volume)
    if !Capacity.fits frequency then .error .tooLarge
    else
      let wave := cycle (Int.fdiv sampleRate frequency) amplitude
      if frequency > 0 ∧ !wave.all fits then .error .tooLarge
      else if wave.isEmpty then return []
      else return (List.replicate frequency.toNat wave).flatten

/-- A speaker, with the commands that make it; a host may lack a sound device. -/
def ofTone {Time : Type} [Scalar Time] (frequency : Int) (volume : Time) (device : Bool) :
    Except Fault (Speaker × List Command) :=
  if device then do
    let sound ← samples frequency volume
    return (⟨true, false⟩, [mixerCommand, .makeSound sound])
  else .ok (⟨false, false⟩, [mixerCommand])

def openRecords (device : Bool) : List Record :=
  if device then [] else [silenceRecord]

/-- Turn the tone on or off; only a change reaches the sound. -/
def setTone (speaker : Speaker) (active : Bool) : Speaker × List Command :=
  if active = speaker.active then (speaker, [])
  else
    ({ speaker with active },
      if speaker.audible then [if active then .play (-1) else .stop] else [])

def closeCommands (speaker : Speaker) : List Command :=
  if speaker.audible then [.stop, .closeMixer] else []

end Speaker

end Chip8.FrontEnd
