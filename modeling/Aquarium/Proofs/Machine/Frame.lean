import Aquarium.Proofs.Grid.Memory
import Aquarium.Proofs.Machine.Lifecycle
import Aquarium.Proofs.Machine.Traffic
import Aquarium.Proofs.Stack.Frames

/-!
# What a single step leaves alone

A step either executes an instruction successfully or it changes nothing but the values of the frame
in use and the phase, besides the position of the pointer and the number of steps
(`settles_or_performs`).  The latter is so in a string literal and whenever the step fails.  In the
former case the change is one that the instruction makes (`untouched_execute`), and the catalogue
gives the characters of the instructions that make it.  Part by part, this says which steps can
change a machine and how much of it (`StepFrame`).
-/

namespace Aquarium

/-- The registers of all frames, that of the frame in use first. -/
def Stack.registers (s : Stack) : List (Option Float) :=
  (s.active :: s.archive).map Frame.register

namespace Instruction

/-- Whether an instruction is a mirror. -/
def isMirror : Instruction → Bool
  | .mirror _ => true
  | _ => false

/-- Whether an instruction handles frames or registers. -/
def handlesFrames : Instruction → Bool
  | .stack command => command.handlesFrames
  | _ => false

end Instruction

namespace Machine

variable {κ : Type} {width height : Nat}

/-- The machine one step later, with the pointer in another position, other values in the frame in
use and another phase. -/
def settled (m : Machine κ) (x y : Int) (values : List Float) (phase : Phase) : Machine κ :=
  { m with
    pointer := { m.pointer with x := x, y := y }
    stack := m.stack.withValues values
    phase := phase
    steps := m.steps + 1 }

/-- The grid after a step of `m` that was a successful write: it differs in the one place that the
operands name. -/
structure Writes (m m' : Machine κ) : Prop where
  symbol : m.symbol? = some 'p'
  success : m'.fault? = none
  place : ∃ y x v rest column row, m.stack.values = y :: x :: v :: rest ∧
    Number.IsIndex x column ∧ Number.IsIndex y row ∧ m'.grid = m.grid.set column row v ∧
    m'.grid.get column row = v ∧
    ∀ column' row', ¬ (column' = column ∧ row' = row) →
      m'.grid.get column' row' = m.grid.get column' row'

/-- What a step from `m` to `m'` changes, part by part. -/
structure StepFrame (m m' : Machine κ) : Prop where
  source : m'.source = m.source
  width : m'.grid.width = m.grid.width
  height : m'.grid.height = m.grid.height
  grid : m'.grid = m.grid ∨ m.Writes m'
  /-- Only reading takes from the input, and it takes the oldest character. -/
  input : m'.input = m.input ∨
    m.symbol? = some 'i' ∧ ∃ c, m.input.items = c :: m'.input.items
  /-- Only successful printing adds to the output, and it adds one emission at the end. -/
  output : m'.output = m.output ∨
    (m.symbol? = some 'o' ∨ m.symbol? = some 'n') ∧ m'.fault? = none ∧
      ∃ e, m'.output.items = m.output.items ++ [e]
  heading : m'.pointer.heading = m.pointer.heading ∨
    ∃ c ∈ ['>', '<', '^', 'v', '/', '\\', '|', '_', '#', 'x'], m.symbol? = some c
  registers : m'.stack.registers = m.stack.registers ∨
    ∃ c ∈ ['[', ']', '&'], m.symbol? = some c
  archive : m'.stack.archive = m.stack.archive ∨
    m.symbol? = some '[' ∧ m'.fault? = none ∨ m.symbol? = some ']'
  /-- In a string literal only the position, the top of the stack, the phase and the number of steps
  change. -/
  reading : ∀ quote, m.phase = .reading quote →
    ∃ x y values phase, (values = m.stack.values ∨ ∃ v, values = v :: m.stack.values) ∧
      m' = m.settled x y values phase

/-! ## Writing, reading and printing -/

/-- What is known of a write that succeeds. -/
lemma put_eq_ok {m m' : Machine κ} (h : onGrid GridCommand.put.run m = .ok () m') :
    ∃ y x v rest column row, m.stack.values = y :: x :: v :: rest ∧
      Number.IsIndex x column ∧ Number.IsIndex y row ∧ m'.grid = m.grid.set column row v := by
  obtain ⟨_, grid, _, ⟨⟨values, register⟩, archive⟩, _, _, _, _, _⟩ := m
  rcases values with _ | ⟨y, _ | ⟨x, _ | ⟨v, rest⟩⟩⟩
  · cases h
  · cases h
  · cases h
  · simp only [onGrid, GridCommand.run, Stack.values, Grid.write] at h
    cases hx : Number.index? x with
    | none =>
        rw [hx] at h
        cases h
    | some column =>
        cases hy : Number.index? y with
        | none =>
            rw [hx, hy] at h
            cases h
        | some row =>
            rw [hx, hy] at h
            cases h
            exact ⟨y, x, v, rest, column, row, rfl, Number.index?_eq_some.mp hx,
              Number.index?_eq_some.mp hy, rfl⟩

/-- The input is changed by reading, which takes the oldest character if there is one. -/
lemma Served.input_cases {m m' : Machine κ} (h : m.Served m') :
    m'.input = m.input ∨ m.symbol? = some 'i' ∧ ∃ c, m.input.items = c :: m'.input.items := by
  have hsame (hitems : m.input.items = m'.input.items) : m'.input = m.input :=
    congrArg Queue.mk hitems.symm
  have hinput := h.input_eq
  rw [reads] at hinput
  split_ifs at hinput with hsymbol
  · cases hitems : m.input.items with
    | nil =>
        rw [hitems] at hinput
        exact Or.inl (hsame (hitems.trans hinput))
    | cons c rest =>
        rw [hitems] at hinput
        exact Or.inr ⟨hsymbol, c, hinput⟩
  · exact Or.inl (hsame hinput)

/-- The output is changed by printing, which appends what it prints if it prints something. -/
lemma Served.output_cases {m m' : Machine κ} (h : m.Served m') :
    m'.output = m.output ∨
      (m.symbol? = some 'o' ∨ m.symbol? = some 'n') ∧
        ∃ e, m'.output.items = m.output.items ++ [e] := by
  have houtput := h.output_eq
  have hprints : m.prints = [] ∨
      (m.symbol? = some 'o' ∨ m.symbol? = some 'n') ∧ ∃ e, m.prints = [e] := by
    rw [prints]
    split_ifs with ho hn
    · cases m.stack.values.head?.bind Number.char? with
      | none => exact Or.inl rfl
      | some c => exact Or.inr ⟨Or.inl ho, _, rfl⟩
    · cases m.stack.values.head? with
      | none => exact Or.inl rfl
      | some v => exact Or.inr ⟨Or.inr hn, _, rfl⟩
    · exact Or.inl rfl
  obtain hnone | ⟨hsymbol, e, hone⟩ := hprints
  · rw [hnone, List.append_nil] at houtput
    exact Or.inl (congrArg Queue.mk houtput)
  · rw [hone] at houtput
    exact Or.inr ⟨hsymbol, e, houtput⟩

/-! ## The two kinds of steps -/

/-- The step from `m` to `m'` changes nothing but the values of the frame in use, the phase and the
record, besides moving on. -/
def Settles (m m' : Machine κ) : Prop :=
  ∃ x y values phase fault, m' = { m.settled x y values phase with fault? := fault }

variable [Compass κ]

/-- The step from `m` to `m'` successfully executes an instruction by its character. -/
structure Performs (m m' : Machine κ) (c : Char) (i : Instruction) : Prop where
  symbol : m.symbol? = some c
  decoded : Instruction.ofChar? c = some i
  execute_eq : execute i m.arrived = .ok () m'
  success : m'.fault? = none

/-- A step in a string literal pushes a value or ends the literal. -/
lemma step_of_reading_eq {m m' : Machine κ} {quote : Char} (hphase : m.phase = .reading quote)
    (hcell : m.advance.cell?.isSome) (h : m.step = .ok m') :
    ∃ x y values phase, (values = m.stack.values ∨ ∃ v, values = v :: m.stack.values) ∧
      m' = m.settled x y values phase := by
  have hreading : m.arrived.phase = .reading quote := hphase
  obtain ⟨-, ⟨hnone, -⟩ | ⟨cell, -, hv⟩⟩ := step_cases h
  · rw [show m.advance.cell? = none from hnone] at hcell
    cases hcell
  · simp only [visit, hreading] at hv
    split_ifs at hv
    · obtain hv | ⟨f, m₁, hv, -⟩ := hv
      · cases hv
        exact ⟨_, _, m.stack.values, _, Or.inl rfl, rfl⟩
      · cases hv
    · obtain hv | ⟨f, m₁, hv, -⟩ := hv
      · cases hv
        exact ⟨_, _, cell :: m.stack.values, m.phase, Or.inr ⟨cell, rfl⟩, rfl⟩
      · cases hv

/-- A visit that fails has taken values off the stack, if anything. -/
lemma settles_of_visit_error {m m₁ : Machine κ} {cell : Float} {f : Fault}
    (hphase : m.phase = .running) (h : visit cell m.arrived = .error f m₁) :
    m.Settles (m₁.fail f) := by
  have hcomes := visit_comesTo (m := m.arrived) hphase cell
  rw [h] at hcomes
  cases hfailure : cellFailure? cell m.arrived.stack m.arrived.grid with
  | none =>
      rw [hfailure] at hcomes
      obtain ⟨s, hs⟩ := hcomes
      cases hs
  | some failure =>
      rw [hfailure] at hcomes
      obtain rfl : m₁ = m.arrived.without failure.2 := by
        cases hcomes
        rfl
      exact ⟨m.arrived.pointer.x, m.arrived.pointer.y, m.stack.values.drop failure.2, .failed,
        some f, rfl⟩

lemma performs_of_visit {m m' : Machine κ} {cell : Float} (hm : m.Recorded)
    (hphase : m.phase = .running) (hcell : m.arrived.cell? = some cell)
    (h : visit cell m.arrived = .ok () m') : ∃ c i, m.Performs m' c i := by
  have hrunning : m.arrived.phase = .running := hphase
  have hnone : m.fault? = none :=
    hm.fault?_eq_none (by rw [hasTerminated, hphase, Phase.isFinal])
  have hsuccess : m'.fault? = none := (fault?_of_visit h).trans hnone
  simp only [visit, hrunning] at h
  cases hi : Instruction.ofCell cell with
  | error f =>
      rw [hi] at h
      cases h
  | ok i =>
      rw [hi] at h
      obtain ⟨c, hc, hdecoded⟩ := Instruction.ofCell_eq_ok hi
      exact ⟨c, i, executes_iff.mp ⟨hphase, cell, hcell, hc⟩, hdecoded, h, hsuccess⟩

/-- **A step settles, or it performs an instruction.** -/
lemma settles_or_performs {m m' : Machine κ} (hm : m.Lawful width height) (h : m.step = .ok m') :
    m.Settles m' ∨ ∃ c i, m.Performs m' c i := by
  obtain ⟨hend, hcases⟩ := step_cases h
  obtain hphase | ⟨quote, hphase⟩ := running_or_reading hend
  · obtain ⟨-, rfl⟩ | ⟨cell, hcell, hv | ⟨f, m₁, hv, rfl⟩⟩ := hcases
    · exact Or.inl ⟨m.arrived.pointer.x, m.arrived.pointer.y, m.stack.values, .failed,
        some m.arrived.lost, rfl⟩
    · exact Or.inr (performs_of_visit hm.recorded hphase hcell hv)
    · exact Or.inl (settles_of_visit_error hphase hv)
  · obtain ⟨x, y, values, phase, -, hm'⟩ := step_of_reading_eq hphase (hm.isSome_cell? hphase) h
    exact Or.inl ⟨x, y, values, phase, m.fault?, hm'⟩

/-! ## The parts of a machine -/

section

variable {m m' : Machine κ} {c : Char} {i : Instruction}

lemma Performs.untouched (h : m.Performs m' c i) : Untouched (changes i) m.arrived m' := by
  have huntouched := untouched_execute i m.arrived
  rwa [stateAfter_of_ok h.execute_eq] at huntouched

/-- The grid is changed by a write, in its place. -/
lemma Performs.grid (h : m.Performs m' c i) (hfilled : m.grid.Filled) :
    m'.grid = m.grid ∨ m.Writes m' := by
  by_cases hset : .set ∈ changes i
  · obtain rfl : i = .grid .put := madeBy_of_mem_changes hset
    obtain rfl : c = 'p' := (Instruction.ofChar?_eq_iff_of_mem (by decide)).mp h.decoded
    obtain ⟨y, x, v, rest, column, row, hvalues, hx, hy, hgrid⟩ := put_eq_ok h.execute_eq
    have hget (column' row' : Nat) : m'.grid.get column' row' =
        if column' = column ∧ row' = row then v else m.grid.get column' row' := by
      rw [hgrid]
      exact Grid.get_set hfilled column row v column' row'
    refine Or.inr ⟨h.symbol, h.success, y, x, v, rest, column, row, hvalues, hx, hy, hgrid, ?_, ?_⟩
    · rw [hget, if_pos ⟨rfl, rfl⟩]
    · intro column' row' hother
      rw [hget, if_neg hother]
  · exact Or.inl (h.untouched.grid hset)

/-- The heading is changed by a mirror. -/
lemma Performs.heading (h : m.Performs m' c i) :
    m'.pointer.heading = m.pointer.heading ∨ c ∈ Instruction.family Instruction.isMirror := by
  by_cases hturn : .turn ∈ changes i
  · obtain ⟨mirror, rfl⟩ := madeBy_of_mem_changes hturn
    exact Or.inr (Instruction.mem_family (fun _ => rfl) h.decoded rfl)
  · exact Or.inl (h.untouched.heading hturn)

/-- Registers are changed by the instructions that handle them. -/
lemma Performs.registers (h : m.Performs m' c i) :
    m'.stack.registers = m.stack.registers ∨
      c ∈ Instruction.family Instruction.handlesFrames := by
  by_cases hstack : .stack ∈ changes i
  · obtain ⟨command, rfl, hframes⟩ := madeBy_of_mem_changes hstack
    exact Or.inr (Instruction.mem_family (fun _ => rfl) h.decoded hframes)
  · obtain ⟨values, hvalues⟩ := h.untouched.frames hstack
    rw [hvalues]
    exact Or.inl rfl

/-- The archive is changed by opening and closing a frame. -/
lemma Performs.archive (h : m.Performs m' c i) :
    m'.stack.archive = m.stack.archive ∨ c = '[' ∨ c = ']' := by
  by_cases hstack : .stack ∈ changes i
  · obtain ⟨command, rfl, hframes⟩ := madeBy_of_mem_changes hstack
    cases command with
    | openFrame =>
        exact Or.inr (Or.inl ((Instruction.ofChar?_eq_iff_of_mem (by decide)).mp h.decoded))
    | closeFrame =>
        exact Or.inr (Or.inr ((Instruction.ofChar?_eq_iff_of_mem (by decide)).mp h.decoded))
    | register =>
        have hstack : m'.stack = stateAfter Stack.exchangeRegister m.stack := by
          rw [← stateAfter_of_ok h.execute_eq]
          exact congrArg Machine.stack (stateAfter_onStack Stack.exchangeRegister m.arrived)
        rw [hstack]
        exact Or.inl (Stack.archive_exchangeRegister m.stack)
    | duplicate | drop | swap | rotate | shiftRight | shiftLeft | reverse | length => cases hframes
  · obtain ⟨values, hvalues⟩ := h.untouched.frames hstack
    rw [hvalues]
    exact Or.inl rfl

end

/-- **A step changes what it executes, and nothing else.** -/
lemma stepFrame_of_step {m m' : Machine κ} (hm : m.Lawful width height) (h : m.step = .ok m') :
    m.StepFrame m' := by
  have hreading {quote : Char} (hphase : m.phase = .reading quote) :=
    step_of_reading_eq hphase (hm.isSome_cell? hphase) h
  obtain ⟨x, y, values, phase, fault, rfl⟩ | ⟨c, i, hperforms⟩ := settles_or_performs hm h
  · exact
      { source := rfl
        width := rfl
        height := rfl
        grid := Or.inl rfl
        input := Or.inl rfl
        output := Or.inl rfl
        heading := Or.inl rfl
        registers := Or.inl rfl
        archive := Or.inl rfl
        reading := fun _ hphase => hreading hphase }
  · have hserved := served_of_step h
    have huntouched := hperforms.untouched
    exact
      { source := huntouched.source
        width := huntouched.width
        height := huntouched.height
        grid := hperforms.grid hm.shaped.filled
        input := hserved.input_cases
        output := hserved.output_cases.imp_right fun ⟨hsymbol, hone⟩ =>
          ⟨hsymbol, hperforms.success, hone⟩
        heading := hperforms.heading.imp_right fun hc => ⟨c, hc, hperforms.symbol⟩
        registers := hperforms.registers.imp_right fun hc => ⟨c, hc, hperforms.symbol⟩
        archive := hperforms.archive.imp_right fun
          | .inl hopen => .inl ⟨hopen ▸ hperforms.symbol, hperforms.success⟩
          | .inr hclose => .inr (hclose ▸ hperforms.symbol)
        reading := fun _ hphase => hreading hphase }

/-- **What a single step leaves alone.**  A program that the host has brought to any state and that
has not ended makes a step.  The step keeps the source and the sizes of the grid.  Only a successful
`p` changes the grid, in the place that its operands name; only `i` takes from the input, the
oldest character; only a successful `o` or `n` adds to the output, one emission at its end; only
mirrors change the heading; only `&`, `[` and `]` change registers, and only a successful `[`, or
`]`, changes the archive.  In a string literal a step moves the pointer on, pushes one value at
most and may change the phase, and that is all. -/
theorem step_leaves_the_rest_alone (source : String) (values : List Float) (compass : κ)
    (calls : List HostCall) :
    let m := (load source values compass).after calls
    m.hasTerminated = false → ∃ m', m.step = .ok m' ∧ m.StepFrame m' := by
  intro m hend
  obtain ⟨m', hstep⟩ := exists_step hend
  have hlawful := (lawful_load source values compass).after calls
  exact ⟨m', hstep, stepFrame_of_step hlawful hstep⟩

/-- A program writes into its own line, and the line changes in that place only. -/
theorem step_leaves_the_rest_alone_but_one_cell :
    let m := (load "'x'30p" [] (⟨[]⟩ : Script)).after (List.replicate 5 .step)
    m.hasTerminated = false ∧ ∃ m', m.step = .ok m' ∧ m.StepFrame m' ∧ m.Writes m' := by
  intro m
  have hend : m.hasTerminated = false := by decide +kernel
  have hwritten : (HostCall.step.apply m).grid ≠ m.grid := by decide +kernel
  obtain ⟨m', hstep, hframe⟩ := step_leaves_the_rest_alone "'x'30p" [] (⟨[]⟩ : Script)
    (List.replicate 5 .step) hend
  rw [HostCall.apply_step_of_ok hstep] at hwritten
  exact ⟨hend, m', hstep, hframe, hframe.grid.resolve_left hwritten⟩

end Machine

end Aquarium
