import Aquarium.Proofs.Machine.Failures
import Aquarium.Proofs.Number.Exact

/-!
# Nothing is lost in the queues

Characters enter the input by calls of the host and leave it by steps; emissions enter the output
by steps and leave it by calls of the host.  What has passed is a matter of the past, so it is told
from the calls: `history` collects what each of them contributed, given the machine at that
moment.  What a step takes and prints is said in terms of the character that it executes
(`Machine.reads`, `Machine.prints`); what the host brings and gets is said in terms of the answers
it was given (`HostCall.accepts`, `HostCall.hands`).

Each call keeps the balance of a queue: what was in it and what enters are what leaves and what is
in it afterwards (`input_balance`, `output_balance`).  By induction the same is true of whole
histories (`history_balance`).
-/

namespace Aquarium

namespace Machine

variable {κ : Type}

/-! ## What a step takes and prints -/

/-- What the next step takes from the input. -/
def reads (m : Machine κ) : List Char :=
  if m.symbol? = some 'i' then m.input.items.take 1 else []

/-- What the next step prints.  A value that is no character is not printed as one, and without
a value there is nothing to print. -/
def prints (m : Machine κ) : List Emission :=
  if m.symbol? = some 'o' then (m.stack.values.head?.bind Number.char?).toList.map .char
  else if m.symbol? = some 'n' then m.stack.values.head?.toList.map .number
  else []

/-- The queues after a step of `m`. -/
structure Served (m m' : Machine κ) : Prop where
  input_eq : m.input.items = m.reads ++ m'.input.items
  output_eq : m'.output.items = m.output.items ++ m.prints

/-- A step with no instruction, or with another one, touches no queue. -/
lemma served_of_other {m m' : Machine κ}
    (h : ∀ i, m.symbol?.bind Instruction.ofChar? = some i →
      i ≠ .input ∧ i ≠ .printChar ∧ i ≠ .printNumber)
    (hqueues : m'.input = m.input ∧ m'.output = m.output) : m.Served m' := by
  have hother {c : Char} {i : Instruction} (hi : Instruction.ofChar? c = some i)
      (hc : m.symbol? = some c) : i ≠ .input ∧ i ≠ .printChar ∧ i ≠ .printNumber :=
    h i (by rw [hc, Option.bind_some, hi])
  constructor
  · rw [reads, if_neg, List.nil_append, hqueues.1]
    exact fun hc => (hother (Instruction.ofChar?_eq_input_iff.mpr rfl) hc).1 rfl
  · rw [prints, if_neg, if_neg, List.append_nil, hqueues.2]
    · exact fun hc => (hother (Instruction.ofChar?_eq_printNumber_iff.mpr rfl) hc).2.2 rfl
    · exact fun hc => (hother (Instruction.ofChar?_eq_printChar_iff.mpr rfl) hc).2.1 rfl

lemma served_of_symbol?_eq_none {m m' : Machine κ} (h : m.symbol? = none)
    (hqueues : m'.input = m.input ∧ m'.output = m.output) : m.Served m' := by
  refine served_of_other (fun i hi => ?_) hqueues
  rw [h] at hi
  cases hi

/-- The value that reading the input gives. -/
def nextInput (m : Machine κ) : Float :=
  match m.input.items with
  | c :: _ => Number.ofChar c
  | [] => Number.ofInt (-1)

lemma isChar_nextInput {m : Machine κ} {c : Char} {rest : List Char}
    (h : m.input.items = c :: rest) : Number.IsChar m.nextInput c := by
  rw [nextInput, h]
  exact Number.isChar_ofChar c

/-- No character has the value that stands for the end of the input. -/
lemma value?_nextInput_iff {m : Machine κ} :
    Number.value? m.nextInput = some (-1) ↔ m.input.items = [] := by
  cases hitems : m.input.items with
  | nil =>
      rw [nextInput, hitems]
      simpa using Number.value?_ofInt (n := -1) (by decide)
  | cons c rest =>
      have hchar : Number.value? m.nextInput = some (c.toNat : ℚ) := isChar_nextInput hitems
      rw [hchar]
      have hnonneg : (0 : ℚ) ≤ c.toNat := Nat.cast_nonneg _
      simp only [Option.some.injEq, reduceCtorEq, iff_false]
      linarith

variable [Compass κ]

lemma execute_input (m : Machine κ) :
    execute .input m =
      .ok () { m with
        input := ⟨m.input.items.drop 1⟩
        stack := m.stack.withValues (m.nextInput :: m.stack.values) } := by
  obtain ⟨_, _, _, _, ⟨items⟩, _, _, _, _⟩ := m
  cases items <;> rfl

lemma queues_printChar (m : Machine κ) :
    (stateAfter (execute .printChar) m).input = m.input ∧
      (stateAfter (execute .printChar) m).output.items =
        m.output.items ++ (m.stack.values.head?.bind Number.char?).toList.map .char := by
  obtain ⟨_, _, _, ⟨⟨values, _⟩, _⟩, _, _, _, _, _⟩ := m
  cases values with
  | nil => exact ⟨rfl, (List.append_nil _).symm⟩
  | cons v rest =>
      simp only [stateAfter, execute, bind_apply, onStack, Stack.pop, Stack.values, List.head?_cons,
        Option.bind_some]
      cases Number.char? v with
      | none => exact ⟨rfl, (List.append_nil _).symm⟩
      | some c => exact ⟨rfl, rfl⟩

lemma queues_printNumber (m : Machine κ) :
    (stateAfter (execute .printNumber) m).input = m.input ∧
      (stateAfter (execute .printNumber) m).output.items =
        m.output.items ++ m.stack.values.head?.toList.map .number := by
  obtain ⟨_, _, _, ⟨⟨values, _⟩, _⟩, _, _, _, _, _⟩ := m
  cases values with
  | nil => exact ⟨rfl, (List.append_nil _).symm⟩
  | cons v rest => exact ⟨rfl, rfl⟩

/-- Every other instruction leaves the queues alone. -/
lemma queues_execute {i : Instruction} (hi : i ≠ .input) (ho : i ≠ .printChar)
    (hn : i ≠ .printNumber) (m : Machine κ) :
    (stateAfter (execute i) m).input = m.input ∧ (stateAfter (execute i) m).output = m.output := by
  have huntouched := untouched_execute i m
  refine ⟨huntouched.input fun hc => hi (madeBy_of_mem_changes hc), ?_⟩
  refine huntouched.output fun hc => ?_
  rcases madeBy_of_mem_changes hc with hchar | hnumber
  · exact ho hchar
  · exact hn hnumber

/-- The characters that touch a queue, and what they do with it. -/
lemma served_of_execute {m : Machine κ} {c : Char} {i : Instruction} (hc : m.symbol? = some c)
    (hi : Instruction.ofChar? c = some i) : m.Served (stateAfter (execute i) m.arrived) := by
  by_cases hinput : i = .input
  · subst hinput
    obtain rfl := Instruction.ofChar?_eq_input_iff.mp hi
    rw [stateAfter_of_ok (execute_input m.arrived)]
    constructor
    · rw [reads, if_pos hc]
      exact (List.take_append_drop 1 m.input.items).symm
    · rw [prints, hc]
      exact (List.append_nil _).symm
  by_cases hchar : i = .printChar
  · subst hchar
    obtain rfl := Instruction.ofChar?_eq_printChar_iff.mp hi
    obtain ⟨hin, hout⟩ := queues_printChar m.arrived
    constructor
    · rw [reads, hc, hin]
      rfl
    · rw [prints, if_pos hc, hout]
      rfl
  by_cases hnumber : i = .printNumber
  · subst hnumber
    obtain rfl := Instruction.ofChar?_eq_printNumber_iff.mp hi
    obtain ⟨hin, hout⟩ := queues_printNumber m.arrived
    constructor
    · rw [reads, hc, hin]
      rfl
    · rw [prints, hc, hout]
      rfl
  · refine served_of_other (fun j hj => ?_) (queues_execute hinput hchar hnumber m.arrived)
    rw [hc, Option.bind_some, hi] at hj
    cases hj
    exact ⟨hinput, hchar, hnumber⟩

lemma served_of_visit {m : Machine κ} {cell : Float} (hphase : m.phase = .running)
    (hcell : m.advance.cell? = some cell) : m.Served (stateAfter (visit cell) m.arrived) := by
  have hsymbol : m.symbol? = Number.char? cell := by
    simp only [symbol?, hphase, hcell, Option.bind_some]
  have hrunning : m.arrived.phase = .running := hphase
  cases hi : Instruction.ofCell cell with
  | ok i =>
      obtain ⟨c, hc, hdecoded⟩ := Instruction.ofCell_eq_ok hi
      have hvisit : stateAfter (visit cell) m.arrived = stateAfter (execute i) m.arrived := by
        simp only [stateAfter, visit, hrunning, hi]
      rw [hvisit]
      exact served_of_execute (hsymbol.trans hc) hdecoded
  | error f =>
      have hvisit : stateAfter (visit cell) m.arrived = m.arrived := by
        simp only [stateAfter, visit, hrunning, hi]
      rw [hvisit]
      refine served_of_other (fun i hdecoded => ?_) ⟨rfl, rfl⟩
      obtain ⟨c, hc, hknown⟩ := Option.bind_eq_some_iff.mp hdecoded
      simp only [Instruction.ofCell, ← hsymbol, hc, Instruction.ofChar, hknown] at hi
      cases hi

/-- **A step takes what it reads from the front of the input and appends what it prints to the
output.** -/
lemma served_of_step {m m' : Machine κ} (h : m.step = .ok m') : m.Served m' := by
  obtain ⟨hend, ⟨hcell, rfl⟩ | ⟨cell, hcell, hv⟩⟩ := step_cases h
  · have hnone : m.symbol? = none := by
      have hcell : m.advance.cell? = none := hcell
      unfold symbol?
      cases m.phase <;> simp [hcell]
    exact served_of_symbol?_eq_none hnone ⟨rfl, rfl⟩
  · have hserved : m.Served (stateAfter (visit cell) m.arrived) := by
      obtain hphase | ⟨quote, hphase⟩ := running_or_reading hend
      · exact served_of_visit hphase hcell
      · have hnone : m.symbol? = none := by simp only [symbol?, hphase]
        have hreading : m.arrived.phase = .reading quote := hphase
        refine served_of_symbol?_eq_none hnone ?_
        simp only [stateAfter, visit, hreading]
        split_ifs <;> exact ⟨rfl, rfl⟩
    obtain hv | ⟨f, m₁, hv, rfl⟩ := hv
    · rw [stateAfter_of_ok hv] at hserved
      exact hserved
    · rw [stateAfter_of_error hv] at hserved
      exact ⟨hserved.1, hserved.2⟩

end Machine

/-! ## What a call contributes -/

/-- The emissions that an answer hands over. -/
def Answer.handed : Answer → List Emission
  | .emissions es => es
  | .done | .stepped _ | .refused _ => []

namespace HostCall

variable {κ : Type} [Compass κ]

/-- The characters that a call offers. -/
def offers : HostCall → List Char
  | .giveChar c => [c]
  | .giveText text | .feed text => text.toList
  | .step | .takeOutput | .drainOutput => []

/-- The characters that were accepted: those of an offer that was not refused. -/
def accepts (call : HostCall) (m : Machine κ) : List Char :=
  match call.answer m with
  | .done => call.offers
  | .stepped _ | .emissions _ | .refused _ => []

/-- The characters that an executed instruction took from the input. -/
def reads (call : HostCall) (m : Machine κ) : List Char :=
  if call = .step then m.reads else []

/-- The emissions that an executed instruction printed. -/
def emits (call : HostCall) (m : Machine κ) : List Emission :=
  if call = .step then m.prints else []

/-- The emissions that were handed to the host. -/
def hands (call : HostCall) (m : Machine κ) : List Emission := (call.answer m).handed

/-- A step that is refused takes and prints nothing. -/
lemma served_apply_step (m : Machine κ) : m.Served (HostCall.step.apply m) := by
  cases hend : m.hasTerminated with
  | true =>
      have hnone : m.symbol? = none := by
        rw [Machine.hasTerminated] at hend
        unfold Machine.symbol?
        cases hphase : m.phase <;> simp [hphase, Phase.isFinal] at hend ⊢
      rw [apply_step_of_terminated hend]
      exact Machine.served_of_symbol?_eq_none hnone ⟨rfl, rfl⟩
  | false =>
      obtain ⟨m', hstep⟩ := Machine.exists_step hend
      rw [apply_step_of_ok hstep]
      exact Machine.served_of_step hstep

lemma accepts_of_offers {call : HostCall} (h : call.offers = []) (m : Machine κ) :
    call.accepts m = [] := by
  unfold accepts
  cases call.answer m with
  | done => exact h
  | stepped | emissions | refused => rfl

lemma input_balance (call : HostCall) (m : Machine κ) :
    m.input.items ++ call.accepts m = call.reads m ++ (call.apply m).input.items := by
  cases call with
  | step =>
      rw [accepts_of_offers rfl, List.append_nil]
      exact (served_apply_step m).input_eq
  | giveChar c => rfl
  | giveText text =>
      simp only [accepts, offers, answer, apply, Machine.giveText, reads, reduceCtorEq, if_false,
        List.nil_append]
      rcases text.toList with _ | ⟨c, _ | ⟨d, rest⟩⟩
      · exact List.append_nil _
      · rfl
      · exact List.append_nil _
  | feed text => rfl
  | takeOutput =>
      rw [accepts_of_offers rfl, List.append_nil]
      simp only [reads, reduceCtorEq, if_false, List.nil_append, apply, Machine.takeOutput,
        Queue.read]
      cases m.output.items <;> rfl
  | drainOutput =>
      rw [accepts_of_offers rfl, List.append_nil]
      rfl

lemma hands_step (m : Machine κ) : HostCall.step.hands m = [] := by
  simp only [hands, answer]
  cases m.step <;> rfl

lemma output_balance (call : HostCall) (m : Machine κ) :
    m.output.items ++ call.emits m = call.hands m ++ (call.apply m).output.items := by
  cases call with
  | step =>
      rw [hands_step, (served_apply_step m).output_eq]
      rfl
  | giveChar c => exact List.append_nil _
  | giveText text =>
      simp only [emits, reduceCtorEq, if_false, List.append_nil, hands, answer, apply,
        Machine.giveText]
      rcases text.toList with _ | ⟨c, _ | ⟨d, rest⟩⟩ <;> rfl
  | feed text => exact List.append_nil _
  | takeOutput =>
      simp only [emits, reduceCtorEq, if_false, List.append_nil, hands, answer, apply,
        Machine.takeOutput, Queue.read]
      cases hitems : m.output.items with
      | nil => exact hitems.symm
      | cons e rest => rfl
  | drainOutput => rfl

end HostCall

namespace Machine

variable {κ : Type} [Compass κ]

/-- What a sequence of calls contributed, in the order of the calls. -/
def history {α : Type} (entry : HostCall → Machine κ → List α) (m : Machine κ) :
    List HostCall → List α
  | [] => []
  | call :: calls => entry call m ++ (call.apply m).history entry calls

lemma history_append {α : Type} (entry : HostCall → Machine κ → List α) (m : Machine κ)
    (calls calls' : List HostCall) :
    m.history entry (calls ++ calls') =
      m.history entry calls ++ (m.after calls).history entry calls' := by
  induction calls generalizing m with
  | nil => rfl
  | cons call calls ih => rw [List.cons_append, history, history, ih, after_cons, List.append_assoc]

/-- What keeps its balance in every call keeps it in all calls together. -/
lemma history_balance {α : Type} {queue : Machine κ → List α}
    {enters leaves : HostCall → Machine κ → List α}
    (h : ∀ call m, queue m ++ enters call m = leaves call m ++ queue (call.apply m))
    (m : Machine κ) (calls : List HostCall) :
    queue m ++ m.history enters calls = m.history leaves calls ++ queue (m.after calls) := by
  induction calls generalizing m with
  | nil => simp [history]
  | cons call calls ih =>
      calc queue m ++ m.history enters (call :: calls)
          = (queue m ++ enters call m) ++ (call.apply m).history enters calls := by
            rw [history, List.append_assoc]
        _ = leaves call m ++ (queue (call.apply m) ++ (call.apply m).history enters calls) := by
            rw [h, List.append_assoc]
        _ = m.history leaves (call :: calls) ++ queue (m.after (call :: calls)) := by
            rw [ih, history, after_cons, List.append_assoc]

/-- **No input and no output is lost, doubled or reordered.**  Whatever the host has done with a
loaded program, the characters taken by the steps that executed `i`, and then those that wait in
the input, are the characters accepted from the host; the emissions handed to the host, and then
those that wait in the output, are those printed by the steps that executed `o` and `n`.  A step
that executes `i` next pushes one value: minus one if and only if no character waits, and
otherwise the code point of the oldest one, which is taken. -/
theorem traffic_is_conserved (source : String) (values : List Float) (compass : κ)
    (calls : List HostCall) :
    let start := load source values compass
    let m := start.after calls
    start.history HostCall.reads calls ++ m.input.items = start.history HostCall.accepts calls ∧
      start.history HostCall.hands calls ++ m.output.items = start.history HostCall.emits calls ∧
      (m.symbol? = some 'i' →
        ∃ m' v, m.step = .ok m' ∧ m'.stack = m.stack.withValues (v :: m.stack.values) ∧
          (Number.value? v = some (-1) ↔ m.input.items = []) ∧
          ∀ c rest, m.input.items = c :: rest → Number.IsChar v c ∧ m'.input.items = rest) := by
  intro start m
  refine ⟨?_, ?_, ?_⟩
  · exact (history_balance HostCall.input_balance start calls).symm
  · exact (history_balance HostCall.output_balance start calls).symm
  · intro hsymbol
    have hstep := step_of_executes (executes_iff.mpr hsymbol)
      (Instruction.ofChar?_eq_input_iff.mpr rfl) (execute_input m.arrived)
    refine ⟨_, m.nextInput, hstep, rfl, value?_nextInput_iff, ?_⟩
    intro c rest hitems
    refine ⟨isChar_nextInput hitems, ?_⟩
    show m.input.items.drop 1 = rest
    rw [hitems]
    rfl

/-- An offer of two characters that have to be one is refused, and the program goes on to read the
oldest of those that were accepted. -/
theorem traffic_is_conserved_past_refused_offer :
    let start := load "ioi" [] (⟨[]⟩ : Script)
    let calls : List HostCall :=
      [.feed "ab", .step, .giveText "cd", .takeOutput, .step, .giveText "e", .takeOutput]
    let m := start.after calls
    start.history HostCall.accepts calls = ['a', 'b', 'e'] ∧
      start.history HostCall.reads calls ++ m.input.items = ['a', 'b', 'e'] ∧
      start.history HostCall.hands calls ++ m.output.items = [.char 'a'] ∧
      ∃ m' v, m.step = .ok m' ∧ m'.stack = m.stack.withValues (v :: m.stack.values) ∧
        Number.IsChar v 'b' ∧ m'.input.items = ['e'] := by
  -- The machine is kept written out: as a local definition it would be evaluated to be compared.
  obtain ⟨hinput, houtput, hread⟩ := traffic_is_conserved "ioi" [] (⟨[]⟩ : Script)
    [.feed "ab", .step, .giveText "cd", .takeOutput, .step, .giveText "e", .takeOutput]
  obtain ⟨m', v, hstep, hstack, -, hv⟩ := hread (by decide +kernel)
  exact ⟨by decide +kernel, hinput.trans (by decide +kernel), houtput.trans (by decide +kernel),
    m', v, hstep, hstack, hv 'b' ['e'] (by decide +kernel)⟩

end Machine

end Aquarium
