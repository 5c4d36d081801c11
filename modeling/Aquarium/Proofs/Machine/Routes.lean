import Aquarium.Proofs.Grid.Loading
import Aquarium.Proofs.Machine.Bounds
import Aquarium.Proofs.Machine.Queues

/-!
# Following a program on its way

To show what a particular program does, one follows it from cell to cell.  A `Scene` is what
changes on the way as long as the program neither writes to its grid nor opens frames nor asks its
compass.  `Leads m n s s'` says that the machine `m` comes in `n` steps from one scene to another,
and such statements are put together to longer ones by transitivity.

`Grid.Meets` says what comes next: a pointer at one place comes to another and meets a character
there.  Each step of a route is a use of `leads_of_meets`, where the scene after it is found by
executing the instruction, or of a lemma for one of the instructions that make a decision.
-/

namespace Aquarium

/-- A pointer at `q` comes to `p` next, and meets the character `c` there. -/
structure Grid.Meets (g : Grid) (q p : Pointer) (c : Char) : Prop where
  advance_eq : q.advance g.width g.height = p
  symbol_eq : (g.cell? p.x p.y).bind Number.char? = some c

instance (g : Grid) (q p : Pointer) (c : Char) : Decidable (g.Meets q p c) :=
  decidable_of_iff
    (q.advance g.width g.height = p ∧ (g.cell? p.x p.y).bind Number.char? = some c)
    ⟨fun h => ⟨h.1, h.2⟩, fun h => ⟨h.1, h.2⟩⟩

/-- On a grid that is loaded from lines a pointer meets the characters of the lines. -/
lemma Grid.meets_ofLines {ls : List (List Char)} {chars : List Char} {row column : Nat}
    {q : Pointer} {heading : Heading} {c : Char} (hrow : ls[row]? = some chars)
    (hc : chars[column]? = some c)
    (h : q.advance (widest ls) ls.length = .on column row heading) :
    (ofLines ls).Meets q (.on column row heading) c := by
  have hcolumn : column < widest ls :=
    (List.getElem?_eq_some_iff.mp hc).1.trans_le (length_le_widest (List.mem_of_getElem? hrow))
  refine ⟨h, ?_⟩
  have hcell := cell?_ofLines hrow hcolumn
  rw [hc, Option.getD_some] at hcell
  exact Option.bind_eq_some_iff.mpr ⟨_, hcell, Number.char?_ofChar c⟩

/-- What changes of a machine on its way: where the pointer is, the values on the stack with the top
first, the input that is left and the output that was made. -/
structure Scene where
  pointer : Pointer
  values : List Float
  input : List Char
  output : List Emission

namespace Machine

variable {κ : Type}

/-- The machine in a scene, with the given number of steps counted. -/
def inScene (m : Machine κ) (s : Scene) (steps : Nat) : Machine κ :=
  { m with
    pointer := s.pointer
    stack := m.stack.withValues s.values
    input := ⟨s.input⟩
    output := ⟨s.output⟩
    steps := steps }

lemma pop_inScene (m : Machine κ) (p : Pointer) (v : Float) (vs : List Float) (input : List Char)
    (output : List Emission) (steps : Nat) :
    onStack Stack.pop (m.inScene ⟨p, v :: vs, input, output⟩ steps) =
      .ok v (m.inScene ⟨p, vs, input, output⟩ steps) := rfl

section Next

variable {m : Machine κ} {s : Scene} {p : Pointer} {c : Char}

lemma executes_inScene (hphase : m.phase = .running) (h : m.grid.Meets s.pointer p c)
    (steps : Nat) : (m.inScene s steps).Executes c := by
  obtain ⟨cell, hcell, hchar⟩ := Option.bind_eq_some_iff.mp h.symbol_eq
  refine ⟨hphase, cell, ?_, hchar⟩
  rw [← h.advance_eq] at hcell
  exact hcell

lemma arrived_inScene (h : m.grid.Meets s.pointer p c) (steps : Nat) :
    (m.inScene s steps).arrived = m.inScene { s with pointer := p } (steps + 1) := by
  rw [← h.advance_eq]
  rfl

end Next

variable [Compass κ]

lemma run_one_of_step {m m' : Machine κ} (h : m.step = .ok m') : m.run 1 = m' := by
  simp only [run, h]

/-- The machine comes from one scene to another in `n` steps. -/
def Leads (m : Machine κ) (n : Nat) (s s' : Scene) : Prop :=
  ∀ steps, (m.inScene s steps).run n = m.inScene s' (steps + n)

section Leads

variable {m : Machine κ} {s s' s'' : Scene} {a b : Nat}

lemma Leads.refl (m : Machine κ) (s : Scene) : m.Leads 0 s s := fun _ => rfl

lemma Leads.run_add (h : m.Leads a s s') (b steps : Nat) :
    (m.inScene s steps).run (a + b) = (m.inScene s' (steps + a)).run b := by
  rw [Machine.run_add, h]

lemma Leads.trans (h : m.Leads a s s') (h' : m.Leads b s' s'') : m.Leads (a + b) s s'' := by
  intro steps
  rw [h.run_add, h', Nat.add_assoc]

instance : Trans (Leads m a) (Leads m b) (Leads m (a + b)) where
  trans := Leads.trans

end Leads

/-! ## One step of a route -/

section Steps

variable {m : Machine κ} {s s' : Scene} {p q : Pointer} {vs : List Float} {input : List Char}
  {output : List Emission}

/-- A step to the character that comes next leads to what its instruction makes of the scene. -/
lemma leads_of_meets {c : Char} {i : Instruction} (hphase : m.phase = .running)
    (h : m.grid.Meets s.pointer p c) (hi : Instruction.ofChar? c = some i)
    (hexecute : ∀ steps,
      execute i (m.inScene { s with pointer := p } steps) = .ok () (m.inScene s' steps)) :
    m.Leads 1 s s' := by
  intro steps
  refine run_one_of_step (step_of_executes (executes_inScene hphase h steps) hi ?_)
  rw [arrived_inScene h, hexecute]

/-- A trampoline takes the pointer one cell further. -/
lemma leads_skip {p' : Pointer} (hphase : m.phase = .running) (h : m.grid.Meets q p '!')
    (hskip : p.advance m.grid.width m.grid.height = p') :
    m.Leads 1 ⟨q, vs, input, output⟩ ⟨p', vs, input, output⟩ := by
  refine leads_of_meets hphase h rfl fun steps => ?_
  rw [← hskip]
  rfl

/-- The conditional trampoline does so on zero. -/
lemma leads_skipIfZero {p' : Pointer} {v : Float} (hphase : m.phase = .running)
    (h : m.grid.Meets q p '?') (hv : Number.isZero v = true)
    (hskip : p.advance m.grid.width m.grid.height = p') :
    m.Leads 1 ⟨q, v :: vs, input, output⟩ ⟨p', vs, input, output⟩ := by
  refine leads_of_meets hphase h rfl fun steps => ?_
  rw [execute, bind_apply, pop_inScene]
  simp only [hv, if_true]
  rw [← hskip]
  rfl

/-- On anything else it only takes the value. -/
lemma leads_skipIfZero_of_ne {v : Float} (hphase : m.phase = .running)
    (h : m.grid.Meets q p '?') (hv : Number.isZero v = false) :
    m.Leads 1 ⟨q, v :: vs, input, output⟩ ⟨p, vs, input, output⟩ := by
  refine leads_of_meets hphase h rfl fun steps => ?_
  rw [execute, bind_apply, pop_inScene]
  simp only [hv, Bool.false_eq_true, if_false]
  rfl

/-- A code point is printed as its character. -/
lemma leads_printChar {c : Char} (hphase : m.phase = .running) (h : m.grid.Meets q p 'o') :
    m.Leads 1 ⟨q, Number.ofChar c :: vs, input, output⟩ ⟨p, vs, input, output ++ [.char c]⟩ := by
  refine leads_of_meets hphase h rfl fun steps => ?_
  rw [execute, bind_apply, pop_inScene]
  simp only [Number.char?_ofChar]
  rfl

/-- The end of a route. -/
lemma run_halt (hphase : m.phase = .running) (h : m.grid.Meets s.pointer p ';') (steps : Nat) :
    (m.inScene s steps).run 1 =
      { m.inScene { s with pointer := p } (steps + 1) with phase := .halted } := by
  refine run_one_of_step (step_of_executes (executes_inScene hphase h steps) rfl ?_)
  rw [arrived_inScene h]
  rfl

end Steps

end Machine

end Aquarium
