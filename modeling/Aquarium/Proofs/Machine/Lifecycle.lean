import Aquarium.Proofs.Machine.Failures

/-!
# The life of a machine

A machine runs, reads string literals in between, and ends at most once.  `Phase.Leads` is the
diagram of its phases: which phase a step can lead to from which.  A step follows the diagram
(`Lawful.leads`), other calls of the host leave the phase alone, and there is no way out of a last
phase.  The fault on record goes with the phase of a failure (`Recorded`).

Two things are not plain from the text of a step.  A literal cannot fail, although a step that finds
no cell does: a machine that reads has found its opening quote in a cell, and a grid with a cell
always has a next one.  And some faults are answers to the host only (`Fault.IsOfProgram`): no step
records them.
-/

namespace Aquarium

/-- A fault that a program can commit.  All others are answers to calls of its host. -/
def Fault.IsOfProgram : Fault → Prop
  | .alreadyTerminated | .emptyQueue | .unknownHeading _ | .badInput _ => False
  | .underflow _ _ | .divisionByZero | .unknownInstruction _ | .notACharacter _ | .outside _ _
  | .unprintable _ | .badSubstackSize _ => True

lemma Failure.isOfProgram {s : Stack} {g : Grid} {v : Float} {f : Fault} {n : Nat}
    (h : Failure s g v f n) : f.IsOfProgram := by
  cases h <;> trivial

/-- The phases that a step can lead to from a phase.  There is none after the last. -/
inductive Phase.Leads : Phase → Phase → Prop
  | run : Leads .running .running
  | beginLiteral {quote : Char} (h : quote = '\'' ∨ quote = '"') : Leads .running (.reading quote)
  | read (quote : Char) : Leads (.reading quote) (.reading quote)
  | endLiteral (quote : Char) : Leads (.reading quote) .running
  | halt : Leads .running .halted
  | fail : Leads .running .failed

namespace Instruction

/-- A literal begins with one of the two quotes. -/
lemma quote_of_ofCell {cell : Float} {quote : Char} (h : ofCell cell = .ok (.string quote)) :
    quote = '\'' ∨ quote = '"' := by
  obtain ⟨c, -, hc⟩ := ofCell_eq_ok h
  obtain ⟨d, -, hdigit⟩ | hmem := ofChar?_eq_some_iff.mp hc
  · cases hdigit
  · simp only [catalogue, List.mem_cons, Prod.mk.injEq, reduceCtorEq, string.injEq, and_false,
      List.not_mem_nil, false_or, or_false] at hmem
    exact hmem.imp And.right And.right

end Instruction

namespace Machine

variable {κ : Type} {width height : Nat}

/-- What is true of a machine at all times: its record goes with its phase, it reads up to a quote,
on a grid with cells, and its fault is one of its program. -/
structure Lawful (width height : Nat) (m : Machine κ) : Prop where
  shaped : m.Shaped width height
  recorded : m.Recorded
  quote : ∀ quote, m.phase = .reading quote → quote = '\'' ∨ quote = '"'
  sizes_pos : ∀ quote, m.phase = .reading quote → 0 < width ∧ 0 < height
  fault : ∀ f, m.fault? = some f → f.IsOfProgram

lemma lawful_load (source : String) (values : List Float) (compass : κ) :
    Lawful (Grid.ofSource source).width (Grid.ofSource source).height
      (load source values compass) :=
  ⟨shaped_load source values compass, recorded_load source values compass,
    fun _ => Phase.noConfusion, fun _ => Phase.noConfusion, fun _ hf => nomatch hf⟩

/-- A machine that reads has a next cell. -/
lemma Lawful.isSome_cell? {m : Machine κ} (h : m.Lawful width height) {quote : Char}
    (hphase : m.phase = .reading quote) : m.advance.cell?.isSome := by
  obtain ⟨hw, hh⟩ := h.sizes_pos quote hphase
  exact h.shaped.isSome_cell?_advance hw hh

/-! ## Steps follow the diagram -/

variable [Compass κ]

lemma leads_of_visit {cell : Float} {m m' : Machine κ} (hphase : m.phase = .running)
    (h : visit cell m = .ok () m') : Phase.Leads .running m'.phase := by
  simp only [visit, hphase] at h
  cases hi : Instruction.ofCell cell with
  | error f =>
      rw [hi] at h
      cases h
  | ok i =>
      rw [hi] at h
      by_cases hchange : Change.phase ∈ changes i
      · -- Only a quote and a halt change the phase of a machine.
        obtain ⟨quote, rfl⟩ | rfl := madeBy_of_mem_changes hchange
        · cases h
          exact .beginLiteral (Instruction.quote_of_ofCell hi)
        · cases h
          exact .halt
      · have hkept := (untouched_execute i m).phase hchange
        have hexecute : execute i m = .ok () m' := h
        rw [stateAfter_of_ok hexecute] at hkept
        rw [hkept, hphase]
        exact .run

lemma leads_of_running {m m' : Machine κ} (hphase : m.phase = .running) (hstep : m.step = .ok m') :
    Phase.Leads .running m'.phase := by
  obtain ⟨-, ⟨-, rfl⟩ | ⟨cell, -, hv | ⟨f, m₁, -, rfl⟩⟩⟩ := step_cases hstep
  · exact .fail
  · exact leads_of_visit (m := m.arrived) hphase hv
  · exact .fail

lemma leads_of_reading {m m' : Machine κ} {quote : Char} (hphase : m.phase = .reading quote)
    (hcell : m.advance.cell?.isSome) (hstep : m.step = .ok m') :
    Phase.Leads (.reading quote) m'.phase := by
  obtain ⟨cell, hcell⟩ := Option.isSome_iff_exists.mp hcell
  have hend : m.hasTerminated = false := by rw [hasTerminated, hphase, Phase.isFinal]
  have harrived : m.arrived.cell? = some cell := hcell
  have hreading : m.arrived.phase = .reading quote := hphase
  simp only [step_eq hend, harrived, visit, hreading] at hstep
  split_ifs at hstep with hclose
  · cases hstep
    exact .endLiteral quote
  · cases hstep
    show Phase.Leads (.reading quote) m.phase
    rw [hphase]
    exact .read quote

/-- A step leaves the record alone, or puts a fault on it that a program can commit. -/
lemma isOfProgram_of_step {m m' : Machine κ} (hstep : m.step = .ok m') {f : Fault}
    (hf : m'.fault? = some f) : m.fault? = some f ∨ f.IsOfProgram := by
  obtain ⟨hend, ⟨-, rfl⟩ | ⟨cell, hcell, hv | ⟨f', m₁, -, rfl⟩⟩⟩ := step_cases hstep
  · cases hf
    exact Or.inr trivial
  · exact Or.inl ((fault?_of_visit hv).symm.trans hf)
  · obtain hphase | ⟨quote, hphase⟩ := running_or_reading hend
    · obtain ⟨f'', n, hf'', hfailure⟩ := exists_failure_of_step hphase hcell hstep rfl
      obtain rfl : f'' = f := Option.some.inj (hf''.symm.trans hf)
      exact Or.inr hfailure.isOfProgram
    · exact absurd rfl (not_failed_of_reading hphase hcell hstep)

/-! ## Whole lives -/

/-- A step follows the diagram. -/
lemma Lawful.leads {m m' : Machine κ} (h : m.Lawful width height) (hstep : m.step = .ok m') :
    m.phase.Leads m'.phase := by
  obtain ⟨hend, -⟩ := step_cases hstep
  obtain hphase | ⟨quote, hphase⟩ := running_or_reading hend
  · rw [hphase]
    exact leads_of_running hphase hstep
  · rw [hphase]
    exact leads_of_reading hphase (h.isSome_cell? hphase) hstep

lemma Lawful.step {m m' : Machine κ} (h : m.Lawful width height) (hstep : m.step = .ok m') :
    m'.Lawful width height := by
  have hleads := h.leads hstep
  refine ⟨h.shaped.step hstep, h.recorded.step hstep, ?_, ?_, ?_⟩
  · intro quote hphase'
    rw [hphase'] at hleads
    generalize hphase : m.phase = phase at hleads
    cases hleads with
    | beginLiteral hquote => exact hquote
    | read => exact h.quote quote hphase
  · intro quote hphase'
    obtain ⟨-, ⟨-, rfl⟩ | ⟨cell, hcell, -⟩⟩ := step_cases hstep
    · cases hphase'
    · rw [← h.shaped.width_eq, ← h.shaped.height_eq]
      exact sizes_pos_of_cell?_advance (m := m) hcell
  · intro f hf
    exact (isOfProgram_of_step hstep hf).elim (h.fault f) id

lemma Lawful.after {m : Machine κ} (h : m.Lawful width height) (calls : List HostCall) :
    (m.after calls).Lawful width height :=
  after_keeps (fun _ _ _ hm => ⟨⟨hm.1.1, hm.1.2, hm.1.3⟩, hm.2, hm.3, hm.4, hm.5⟩)
    (fun _ _ hm hs => hm.step hs) calls m h

/-- A call of the host leaves the phase alone, or it is a step and follows the diagram. -/
lemma Lawful.phase_apply {m : Machine κ} (h : m.Lawful width height) (call : HostCall) :
    (call.apply m).phase = m.phase ∨ call = .step ∧ m.phase.Leads (call.apply m).phase := by
  by_cases hcall : call = .step
  · subst hcall
    cases hend : m.hasTerminated with
    | true => exact Or.inl (by rw [HostCall.apply_step_of_terminated hend])
    | false =>
        obtain ⟨m', hstep⟩ := exists_step hend
        rw [HostCall.apply_step_of_ok hstep]
        exact Or.inr ⟨rfl, h.leads hstep⟩
  · obtain ⟨input, output, hm⟩ := HostCall.apply_of_ne_step hcall m
    rw [hm]
    exact Or.inl rfl

/-- A literal is not the end: no call takes a machine from there to a last phase. -/
lemma Lawful.not_terminated_of_reading {m : Machine κ} (h : m.Lawful width height) {quote : Char}
    (hphase : m.phase = .reading quote) (call : HostCall) :
    (call.apply m).hasTerminated = false := by
  rw [hasTerminated]
  obtain hsame | ⟨-, hleads⟩ := h.phase_apply call
  · rw [hsame, hphase, Phase.isFinal]
  · rw [hphase] at hleads
    generalize (call.apply m).phase = phase at hleads
    cases hleads with
    | read | endLiteral => rfl

/-- A machine that has ended is left with all it has, except that the queues are still the
host's. -/
lemma after_of_terminated {m : Machine κ} (h : m.hasTerminated = true) (calls : List HostCall) :
    ∃ input output, m.after calls = { m with input := input, output := output } := by
  induction calls generalizing m with
  | nil => exact ⟨m.input, m.output, rfl⟩
  | cons call calls ih =>
      obtain ⟨input, output, hm⟩ := HostCall.apply_of_terminated h call
      obtain ⟨input', output', hrest⟩ := ih (m := { m with input := input, output := output }) h
      exact ⟨input', output', by rw [after_cons, hm, hrest]⟩

/-- **The life of a program.**  Whatever the host has done with a loaded program:

* there is a fault on record if and only if the phase is that of a failure, and it is a fault that a
  program can commit;
* a call changes the phase only by a step and along the diagram; in particular a literal is read
  up to one of the two quotes, and no call leads from there to a last phase;
* as long as the program has not ended, a step is made, tells whether the program has ended with
  it, and is counted once;
* once it has ended, a step is refused and changes nothing, and no calls at all change anything
  but the queues. -/
theorem program_lifecycle (source : String) (values : List Float) (compass : κ)
    (calls : List HostCall) :
    let m := (load source values compass).after calls
    (m.fault?.isSome = true ↔ m.phase = .failed) ∧
      (∀ f, m.fault? = some f →
        f ≠ .alreadyTerminated ∧ f ≠ .emptyQueue ∧ (∀ c, f ≠ .unknownHeading c) ∧
          ∀ text, f ≠ .badInput text) ∧
      (∀ call : HostCall, (call.apply m).phase = m.phase ∨
        call = .step ∧ m.phase.Leads (call.apply m).phase) ∧
      (∀ quote, m.phase = .reading quote →
        (quote = '\'' ∨ quote = '"') ∧
          ∀ call : HostCall, (call.apply m).hasTerminated = false) ∧
      (m.hasTerminated = false →
        HostCall.step.answer m = .stepped (HostCall.step.apply m).hasTerminated ∧
          (HostCall.step.apply m).steps = m.steps + 1) ∧
      (m.hasTerminated = true →
        HostCall.step.answer m = .refused .alreadyTerminated ∧ HostCall.step.apply m = m ∧
          ∀ more, ∃ input output,
            m.after more = { m with input := input, output := output }) := by
  intro m
  have hlawful := (lawful_load source values compass).after calls
  refine ⟨hlawful.recorded.symm, ?_, hlawful.phase_apply, ?_, ?_, ?_⟩
  · intro f hf
    have hprogram := hlawful.fault f hf
    refine ⟨?_, ?_, ?_, ?_⟩
    · rintro rfl
      exact hprogram
    · rintro rfl
      exact hprogram
    · rintro c rfl
      exact hprogram
    · rintro text rfl
      exact hprogram
  · intro quote hphase
    exact ⟨hlawful.quote quote hphase, hlawful.not_terminated_of_reading hphase⟩
  · intro hend
    obtain ⟨m', hstep⟩ := exists_step hend
    rw [HostCall.apply_step_of_ok hstep]
    exact ⟨HostCall.answer_step_of_ok hstep, steps_of_step hstep⟩
  · intro hend
    exact ⟨HostCall.answer_step_of_terminated hend, HostCall.apply_step_of_terminated hend,
      after_of_terminated hend⟩

/-- A literal with an operator in it, which is read and not executed, and then the operator
itself, which finds one value too few and ends the program for good. -/
theorem program_lifecycle_literal_then_failure :
    let start := load "'+'+" [] (⟨[]⟩ : Script)
    let within := start.after [.step, .step]
    let ended := start.after [.step, .step, .step, .feed "a", .step]
    within.phase = .reading '\'' ∧
      (∀ call : HostCall, (call.apply within).hasTerminated = false) ∧
      ended.phase = .failed ∧ ended.fault? = some (.underflow 2 1) ∧
      HostCall.step.answer ended = .refused .alreadyTerminated ∧
      ∀ more, ∃ input output,
        ended.after more = { ended with input := input, output := output } := by
  intro start within ended
  have hreading : within.phase = .reading '\'' := by decide +kernel
  have hend : ended.hasTerminated = true := by decide +kernel
  obtain ⟨-, -, -, hliteral, -, -⟩ := program_lifecycle "'+'+" [] (⟨[]⟩ : Script) [.step, .step]
  obtain ⟨hrecord, -, -, -, -, hlast⟩ :=
    program_lifecycle "'+'+" [] (⟨[]⟩ : Script) [.step, .step, .step, .feed "a", .step]
  have hfault : ended.fault? = some (.underflow 2 1) := by decide +kernel
  obtain ⟨hanswer, -, hmore⟩ := hlast hend
  have hfailed : ended.phase = .failed := hrecord.mp (by rw [hfault]; rfl)
  exact ⟨hreading, (hliteral _ hreading).2, hfailed, hfault, hanswer, hmore⟩

end Machine

end Aquarium
