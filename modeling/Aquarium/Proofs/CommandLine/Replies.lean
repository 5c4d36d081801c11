import Aquarium.CommandLine.Standard
import Aquarium.Proofs.CommandLine.Jobs
import Aquarium.Proofs.Machine.Record
import Aquarium.Proofs.Session.Unattended

/-!
# What a command replies

A command runs the program that its options name.  What it prints is what the bare machine has
printed once it has ended or has used up its budget, and it succeeds if the machine has halted on
purpose (`reply_shows_bare_run`).  This is so for all tools that the command may work with: any
reader of manifests, any compass for a seed, and any compass that chance may give a program without
a seed.

The manifest of a project is a shorthand: the same reply comes from the file of the program together
with options for what the manifest says (`direct`).
-/

namespace Aquarium

namespace CommandLine

variable {κ : Type}

/-- The steps that a program may make, given the limit that was asked for. -/
def budget : Option Nat → Option Nat
  | none => some 1000000
  | some 0 => none
  | some (n + 1) => some (n + 1)

lemma settings_maxSteps (job : Job) : (settings job).maxSteps = budget job.maxSteps := by
  rcases job with ⟨_, _, _, _ | _ | n, _⟩ <;> rfl

lemma printed_lastOutcome (m : Machine κ) (output : List Emission) :
    printed (Session.lastOutcome m) output = Emission.render output := by
  unfold Session.lastOutcome Session.ending
  split_ifs
  · cases m.fault? <;> rfl
  · rfl

/-- A run is a success if it has left no fault on record.  That the machine has halted follows
because its record goes with its phase. -/
lemma isSuccess_lastOutcome {m : Machine κ} (h : m.Recorded) :
    isSuccess (Session.lastOutcome m) = true ↔ m.phase = .halted := by
  rw [h.halted_iff]
  unfold Session.lastOutcome Session.ending
  cases m.hasTerminated <;> cases m.fault? <;> simp [isSuccess]

variable [Compass κ]

lemma runJob_of_run {job : Job} {c : κ} {outcome : Outcome} {s' : Session κ}
    {d : Option Debugger} (hrun : (session job c).run none = some (outcome, s', d))
    (tracing : Bool) :
    runJob job tracing c =
      some (.answered (isSuccess outcome) (printed outcome s'.output.toList)
        ((if tracing then trace (session job c) else []) ++
          verdict outcome s'.machine.steps)) := by
  rw [runJob, hrun]
  rfl

/-- A job that has come as far as it gets is answered with what the bare machine has printed. -/
lemma exists_runJob_of_lasts (job : Job) (tracing : Bool) {c : κ} {n : Nat}
    (h : (session job c).machine.Lasts (budget job.maxSteps) n) :
    ∃ success errors,
      runJob job tracing c = some (.answered success
        (Emission.render ((session job c).machine.run n).output.items) errors) ∧
      (success = true ↔ ((session job c).machine.run n).phase = .halted) := by
  rw [← settings_maxSteps] at h
  obtain ⟨s', hrun, -, houtput⟩ := Session.exists_run_of_lasts (s := session job c) rfl rfl h
  have hreply := runJob_of_run hrun tracing
  rw [printed_lastOutcome, houtput] at hreply
  have hfresh : (session job c).machine.Recorded :=
    Machine.recorded_load job.source job.initialStack c
  exact ⟨_, _, hreply, isSuccess_lastOutcome (hfresh.run n)⟩

lemma exists_lasts_of_runJob {job : Job} {tracing : Bool} {c : κ}
    (h : runJob job tracing c ≠ none) :
    ∃ n, (session job c).machine.Lasts (budget job.maxSteps) n := by
  rw [← settings_maxSteps]
  refine Session.exists_lasts_of_run (s := session job c) fun hnone => h ?_
  rw [runJob, hnone]
  rfl

/-! ## Commands -/

variable {tools : Tools κ} {chance : κ} {h : Host Id} {o : Options} {base : Job}

/-- A command runs the program that is named, changed as the options say. -/
lemma carryOut_of_provides (hconsistent : o.isConsistent = true)
    (hbase : Provides tools.readManifest h o base) :
    (carryOut tools chance h o).run =
      runJob (amend o base) o.trace (compass tools.seeded chance (amend o base)) := by
  have hfind : (findJob tools.readManifest h o).run = Except.ok base :=
    (findJob_eq_ok_iff hconsistent).mpr hbase
  unfold carryOut
  simp only [Id.run, bind, pure, hfind]

/-- Without a program a command fails. -/
lemma carryOut_of_not_provides (hconsistent : o.isConsistent = true)
    (hnone : ∀ base, ¬ Provides tools.readManifest h o base) :
    ∃ fault : JobFault, (carryOut tools chance h o).run =
      some (.answered false "" ["error: " ++ fault.message]) := by
  unfold carryOut
  simp only [Id.run, bind, pure]
  cases hfind : (findJob tools.readManifest h o).run with
  | error fault => exact ⟨fault, rfl⟩
  | ok base => exact absurd ((findJob_eq_ok_iff hconsistent).mp hfind) (hnone base)

end CommandLine

/-- The same request without the project: its file, and what its manifest says unless the options
say otherwise. -/
def Options.direct (o : Options) (p : Project) : Options :=
  { o with
    project := none
    file := some p.path
    values := p.manifest.initialStack ++ o.values
    input := some (o.input.getD p.manifest.input)
    maxSteps := o.maxSteps <|> p.manifest.maxSteps
    seed := o.seed <|> p.manifest.seed }

lemma Options.isConsistent_direct {o : Options} (h : o.isConsistent = true) {directory : String}
    (hproject : o.project = some directory) (p : Project) : (o.direct p).isConsistent = true := by
  simp [direct, isConsistent, (alone_of_project h hproject).1]

namespace CommandLine

variable {κ : Type} [Compass κ]

/-- What the manifest of a project says may as well be said by options. -/
lemma carryOut_direct {tools : Tools κ} {chance : κ} {h : Host Id} {o : Options}
    {directory : String} {p : Project} (hconsistent : o.isConsistent = true)
    (hproject : o.project = some directory)
    (hload : Project.Loads tools.readManifest h directory p) (hpath : p.path ≠ "-") :
    (carryOut tools chance h (o.direct p)).run = (carryOut tools chance h o).run := by
  obtain ⟨text, htext, hsource⟩ := hload.source
  have hdirect := Options.isConsistent_direct hconsistent hproject p
  rw [carryOut_of_provides hconsistent (.project hproject hload),
    carryOut_of_provides hdirect (.file rfl hpath htext hsource)]
  have hjob : amend (o.direct p) { source := p.source } = amend o p.job := by
    simp [amend, Options.direct, Project.job, Option.orElse_eq_or]
  rw [hjob]
  rfl

/-- **A command shows what the bare program does.**  Let options that do not contradict each other
name a program on a host.  The program is loaded with the stack of the manifest, if there is one,
and then the numbers and the characters of the options; input, seed and limit are those of the
options or else of the manifest, where a limit of zero is none and no limit is a million steps.
Its compass is the one for the seed, and any compass at all without a seed.  The command is answered
if and only if the program comes to its end or has a limit.  Then all that the bare program has
printed is the output of the command, and the command succeeds if and only if the program has halted
on purpose.

If the options name no program that can be read, then the command fails with a message.

The options for a project can be replaced by options that name its file and say what the manifest
says: they do not contradict each other either, and the reply is the same. -/
theorem reply_shows_bare_run (tools : Tools κ) (chance : κ) (h : Host Id) {o : Options}
    (hconsistent : o.isConsistent = true) :
    (∀ base, Provides tools.readManifest h o base →
      let values := base.initialStack ++ o.values ++
        (o.string.getD "").toList.map fun c => Number.ofNat c.toNat
      let compass := ((o.seed <|> base.seed).map tools.seeded).getD chance
      let fresh := (Machine.load base.source values compass).feed (o.input.getD base.input)
      let limit := budget (o.maxSteps <|> base.maxSteps)
      ((carryOut tools chance h o).run ≠ none ↔ ∃ n, fresh.Lasts limit n) ∧
        ∀ n, fresh.Lasts limit n → ∃ success errors,
          (carryOut tools chance h o).run =
            some (.answered success (Emission.render (fresh.run n).output.items) errors) ∧
          (success = true ↔ (fresh.run n).phase = .halted)) ∧
      ((∀ base, ¬ Provides tools.readManifest h o base) → ∃ fault : JobFault,
        (carryOut tools chance h o).run =
          some (.answered false "" ["error: " ++ fault.message])) ∧
      ∀ directory p, o.project = some directory →
        Project.Loads tools.readManifest h directory p → p.path ≠ "-" →
          (o.direct p).isConsistent = true ∧
            (carryOut tools chance h (o.direct p)).run = (carryOut tools chance h o).run := by
  refine ⟨fun base hbase => ?_, carryOut_of_not_provides hconsistent,
    fun directory p hproject hload hpath => ⟨Options.isConsistent_direct hconsistent hproject p,
      carryOut_direct hconsistent hproject hload hpath⟩⟩
  intro values drawn fresh limit
  have hdrawn : compass tools.seeded chance (amend o base) = drawn := by
    simp only [compass, amend, drawn]
    cases o.seed <|> base.seed <;> rfl
  rw [carryOut_of_provides hconsistent hbase, hdrawn]
  have hanswer (n : Nat) (hn : fresh.Lasts limit n) :=
    exists_runJob_of_lasts (amend o base) o.trace (c := drawn) hn
  refine ⟨⟨exists_lasts_of_runJob, ?_⟩, hanswer⟩
  rintro ⟨n, hn⟩
  obtain ⟨success, errors, hrun, -⟩ := hanswer n hn
  rw [hrun]
  exact Option.some_ne_none _

/-- A project with one number in its manifest and another one on the command line, which the program
adds, with the tools that the command comes with.  The command without the project has both numbers
on the command line. -/
theorem reply_shows_bare_run_of_project :
    let h : Host Id :=
      { readFile := fun path =>
          .ok (if path = "p/fish.toml" then "program=['a','f',[1]]\nlimits=[9]" else "+n;\n").toUTF8
        isFile := fun _ => true
        readInput := .error .notFound }
    let o : Options := { project := some "p", values := [Number.ofNat 2] }
    let p : Project :=
      { manifest :=
          { name := "a", entry := "f", initialStack := [Number.ofNat 1], maxSteps := some 9 }
        path := "p/f"
        source := "+n;" }
    let command := execute .standard (Dice.ofBytes []) h
    o.isConsistent = true ∧ Project.Loads Manifest.ofText h "p" p ∧
      ∃ errors, (command ["--project=p", "--value=2"]).run = some (.answered true "3" errors) ∧
        (command ["--value=1", "--value=2", "--input=", "--max-steps=9", "p/f"]).run =
          some (.answered true "3" errors) := by
  intro h o p command
  have hread (path : String) : h.readText path =
      .ok (if path = "p/fish.toml" then "program=['a','f',[1]]\nlimits=[9]" else "+n;\n") :=
    Host.decode_toUTF8 _
  have hmanifest : Project.joinPath "p" manifestName = "p/fish.toml" := by decide +kernel
  have hload : Project.Loads Manifest.ofText h "p" p :=
    { manifest := ⟨_, by rw [hmanifest, hread, if_pos rfl], by decide +kernel⟩
      name := by decide +kernel
      entry := by decide +kernel
      path := by decide +kernel
      isFile := rfl
      source := ⟨_, by rw [hread, if_neg (by decide)], Text.trimmed_iff.mpr (by decide +kernel)⟩ }
  have hproject : Tools.standard.options? ["--project=p", "--value=2"] = some o := by
    decide +kernel
  have hfile : Tools.standard.options? ["--value=1", "--value=2", "--input=", "--max-steps=9",
      "p/f"] = some (o.direct p) := by decide +kernel
  obtain ⟨hreply, -, hdirect⟩ := reply_shows_bare_run .standard (Dice.ofBytes []) h (o := o) rfl
  obtain ⟨-, hanswer⟩ := hreply _ (.project rfl hload)
  obtain ⟨success, errors, hrun, hsuccess⟩ := hanswer 9 (Or.inl rfl)
  obtain rfl : success = true := hsuccess.mpr (by decide +kernel)
  obtain ⟨-, hsame⟩ := hdirect "p" p rfl hload (by decide +kernel)
  have hprinted : (carryOut .standard (Dice.ofBytes []) h o).run =
      some (.answered true "3" errors) :=
    hrun.trans (congrArg (some <| Reply.answered true · errors) (by decide +kernel))
  refine ⟨rfl, hload, errors, ?_, ?_⟩
  · simp only [command, execute, hproject]
    exact hprinted
  · simp only [command, execute, hfile]
    exact hsame.trans hprinted

end CommandLine

end Aquarium
