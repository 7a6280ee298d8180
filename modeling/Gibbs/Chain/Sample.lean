/-
  Samples: chains that are run and brought into a form in one go.

  * `Sampler.sampleLeaving`: the name of the form is looked up before any chain runs; what the
    chains leave of their source is left by the whole;
  * `Sampler.sample`: the draws alone;
  * `sampleLeaving_of_none`, `sampleLeaving_of_mode`: a name that stands for no form, and one
    that does.
-/
import Gibbs.Assembly.Mode
import Gibbs.Chain.Many

namespace Gibbs

open Assembly

namespace Sampler

/-- The draws of a run in a form, together with what is left of the source. -/
def sampleLeaving (s : Sampler) (p : Plan Stream) (source : Source) (output : String) :
    Outcome Assembled × Source :=
  match Mode.ofText output with
  | .error e => (.failed e, source)
  | .ok mode =>
    let run := s.runChains p source
    (run.outcome.andThen fun chains => assemble chains mode, run.source)

/-- The draws of a run in a form. -/
def sample (s : Sampler) (p : Plan Stream) (source : Source) (output : String) :
    Outcome Assembled :=
  (s.sampleLeaving p source output).1

variable (s : Sampler) (p : Plan Stream) (source : Source) {output : String}

/-- A name that stands for no form is refused before the run. -/
theorem sampleLeaving_of_none (h : Mode.ofText? output = none) :
    s.sampleLeaving p source output = (.failed (.fault .badValue), source) := by
  simp only [sampleLeaving, Mode.ofText, h]

theorem sampleLeaving_of_mode {mode : Mode} (h : Mode.ofText? output = some mode) :
    s.sampleLeaving p source output
      = ((s.runChains p source).outcome.andThen fun chains => assemble chains mode,
          (s.runChains p source).source) := by
  simp only [sampleLeaving, Mode.ofText, h]

end Sampler

end Gibbs
