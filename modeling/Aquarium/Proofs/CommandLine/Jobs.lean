import Aquarium.CommandLine.Run
import Aquarium.Proofs.Text.Lines

/-!
# Where programs come from

A host that is a plain value has its files and its standard input once and for all.  On such a host
`Project.Loads` says what stands in the directory of a project, and `Provides` which program the
options name, before they change anything about it.  This is what loading finds
(`Project.load_eq_ok_iff`, `findJob_eq_ok_iff`), whatever the reader of manifests is.
-/

namespace Aquarium

namespace Text

/-- A text, and what is left of it without one newline at its end.  A carriage return right before
the newline goes with it. -/
inductive Trimmed : String → String → Prop
  | unended {s : String} (h : ¬ ['\n'] <:+ s.toList) : Trimmed s s
  | newline {s : String} (h : ¬ ['\r'] <:+ s.toList) : Trimmed (s ++ "\n") s
  | returned (s : String) : Trimmed (s ++ "\r\n") s

lemma trimmed_iff {t s : String} : Trimmed t s ↔ stripLineEnd t = s := by
  have hended (cs ending : List Char) :
      String.ofList (cs ++ ending) = String.ofList cs ++ String.ofList ending := by
    rw [← String.toList_inj]
    simp
  constructor
  · rintro (h | h | s)
    · exact stripLineEnd_of_not_suffix h
    · have hlast := mt List.singleton_suffix_iff_getLast?_eq_some.mpr h
      have hstrip := stripLineEnd_concat_newline s.toList
      rwa [dropReturn_of_ne hlast, hended, String.ofList_toList] at hstrip
    · have hstrip := stripLineEnd_concat_newline (s.toList ++ ['\r'])
      rwa [dropReturn_concat_return, List.append_assoc, hended, String.ofList_toList] at hstrip
  · rintro rfl
    by_cases hnewline : ['\n'] <:+ t.toList
    · obtain ⟨cs, hcs⟩ := hnewline
      obtain rfl : String.ofList (cs ++ ['\n']) = t := by rw [hcs, String.ofList_toList]
      rw [stripLineEnd_concat_newline]
      by_cases hreturn : ['\r'] <:+ cs
      · obtain ⟨ds, rfl⟩ := hreturn
        rw [dropReturn_concat_return, List.append_assoc, hended]
        exact .returned _
      · rw [dropReturn_of_ne (mt List.singleton_suffix_iff_getLast?_eq_some.mpr hreturn), hended]
        exact .newline (by rwa [String.toList_ofList])
    · rw [stripLineEnd_of_not_suffix hnewline]
      exact .unended hnewline

end Text

/-- Text is read as it was written. -/
lemma Host.decode_toUTF8 (s : String) : decode s.toUTF8 = .ok s := by
  have hdecode : String.fromUTF8? s.toUTF8 = some s := dif_pos s.isValidUTF8
  rw [decode, hdecode]

variable {read : Manifest.Reader} {h : Host Id}

/-- A manifest is loaded if its reader understands the text and neither name nor entry is blank. -/
lemma Manifest.load_eq_ok_iff {path text : String} {m : Manifest} :
    load read path text = .ok m ↔
      read text = .ok m ∧ Text.isBlank m.name = false ∧ Text.isBlank m.entry = false := by
  unfold load blankField?
  cases read text with
  | error cause => simp
  | ok m' =>
      simp only [Except.ok.injEq]
      split_ifs with hname hentry
      · simp only [false_iff]
        rintro ⟨rfl, hname', -⟩
        simp [hname] at hname'
      · simp only [false_iff]
        rintro ⟨rfl, -, hentry'⟩
        simp [hentry] at hentry'
      · simp only [Except.ok.injEq, iff_self_and]
        rintro rfl
        simp [hname, hentry]

namespace Project

/-- The directory of a project holds a manifest without blanks, and the file that it names holds the
program. -/
structure Loads (read : Manifest.Reader) (h : Host Id) (directory : String) (p : Project) :
    Prop where
  manifest : ∃ text, h.readText (joinPath directory manifestName) = .ok text ∧
    read text = .ok p.manifest
  name : Text.isBlank p.manifest.name = false
  entry : Text.isBlank p.manifest.entry = false
  path : p.path = joinPath directory p.manifest.entry
  isFile : h.isFile p.path = true
  source : ∃ text, h.readText p.path = .ok text ∧ Text.Trimmed text p.source

variable {directory : String} {p : Project}

/-- **Loading finds the project that is there.** -/
lemma load_eq_ok_iff : (load read h directory).run = Except.ok p ↔ Loads read h directory p := by
  simp only [load, ExceptT.run, bind, ExceptT.bind, ExceptT.mk, ExceptT.bindCont, pure,
    ExceptT.pure, liftM, monadLift, MonadLift.monadLift, ExceptT.lift, Functor.map, throw, throwThe,
    MonadExceptOf.throw]
  constructor
  · intro hload
    split at hload
    · next text htext =>
      split at hload
      · next manifest hmanifest =>
        obtain ⟨hread, hname, hentry⟩ := Manifest.load_eq_ok_iff.mp hmanifest
        split_ifs at hload with hfile
        split at hload
        · next source hsource =>
          cases hload
          exact ⟨⟨text, htext, hread⟩, hname, hentry, rfl, by simpa using hfile,
            ⟨source, hsource, Text.trimmed_iff.mpr rfl⟩⟩
        · cases hload
      · cases hload
    · cases hload
  · obtain ⟨manifest, path, stripped⟩ := p
    rintro ⟨⟨text, htext, hread⟩, hname, hentry, hpath, hfile, source, hsource, hstrip⟩
    dsimp only at hread hname hentry hpath hfile hsource hstrip
    subst hpath
    rw [Text.trimmed_iff] at hstrip
    have hmanifest : Manifest.load read (joinPath directory manifestName) text = .ok manifest :=
      Manifest.load_eq_ok_iff.mpr ⟨hread, hname, hentry⟩
    simp only [htext, hmanifest, hfile, hsource, hstrip, Bool.not_true, Bool.false_eq_true,
      if_false]

end Project

namespace Options

variable {o : Options}

lemma alone_of_project (h : o.isConsistent = true) {directory : String}
    (hproject : o.project = some directory) : o.code = none ∧ o.file = none := by
  simpa [isConsistent, hproject] using h

lemma alone_of_file (h : o.isConsistent = true) {path : String} (hfile : o.file = some path) :
    o.code = none ∧ o.project = none := by
  simpa [isConsistent, hfile] using h

end Options

namespace CommandLine

/-- The program that options name, with the settings that come with it.  The manifest of a project
has settings of its own. -/
inductive Provides (read : Manifest.Reader) (h : Host Id) (o : Options) : Job → Prop
  | code {text : String} (hcode : o.code = some text) : Provides read h o { source := text }
  | project {directory : String} {p : Project} (hproject : o.project = some directory)
      (hload : Project.Loads read h directory p) :
      Provides read h o
        { source := p.source
          initialStack := p.manifest.initialStack
          input := p.manifest.input
          maxSteps := p.manifest.maxSteps
          seed := p.manifest.seed }
  | file {path text source : String} (hfile : o.file = some path) (hpath : path ≠ "-")
      (htext : h.readText path = .ok text) (hsource : Text.Trimmed text source) :
      Provides read h o { source := source }
  | input {text source : String} (hcode : o.code = none) (hproject : o.project = none)
      (hfile : ∀ path ∈ o.file, path = "-") (htext : h.readInputText = .ok text)
      (hsource : Text.Trimmed text source) : Provides read h o { source := source }

variable {o : Options} {job : Job}

/-- **The job that is found is the one that the options name.** -/
lemma findJob_eq_ok_iff (hconsistent : o.isConsistent = true) :
    (findJob read h o).run = Except.ok job ↔ Provides read h o job := by
  simp only [findJob, findJob.fromInput, ExceptT.run, bind, ExceptT.bind, ExceptT.mk,
    ExceptT.bindCont, pure, ExceptT.pure, liftM, monadLift, MonadLift.monadLift, ExceptT.lift,
    Functor.map, throw, throwThe, MonadExceptOf.throw]
  constructor
  · intro hfind
    split at hfind
    · next text hcode =>
      cases hfind
      exact .code hcode
    · next directory hcode hproject =>
      split at hfind
      · next p hload =>
        cases hfind
        exact .project hproject (Project.load_eq_ok_iff.mp hload)
      · cases hfind
    · next path hcode hproject hfile =>
      split_ifs at hfind with hpath
      · split at hfind
        · next text htext =>
          cases hfind
          exact .input hcode hproject (by simp [hfile, hpath]) htext (Text.trimmed_iff.mpr rfl)
        · cases hfind
      · split at hfind
        · next text htext =>
          cases hfind
          exact .file hfile hpath htext (Text.trimmed_iff.mpr rfl)
        · cases hfind
    · next hcode hproject hfile =>
      split at hfind
      · next text htext =>
        cases hfind
        exact .input hcode hproject (by simp [hfile]) htext (Text.trimmed_iff.mpr rfl)
      · cases hfind
  · rintro (hcode | ⟨hproject, hload⟩ | ⟨hfile, hpath, htext, hsource⟩ |
      ⟨hcode, hproject, hfile, htext, hsource⟩)
    · simp only [hcode]
    · have hload' : Project.load read h _ = Except.ok _ := Project.load_eq_ok_iff.mpr hload
      simp only [(Options.alone_of_project hconsistent hproject).1, hproject, hload']
      rfl
    · obtain ⟨hcode, hproject⟩ := Options.alone_of_file hconsistent hfile
      rw [Text.trimmed_iff] at hsource
      simp only [hcode, hproject, hfile, hpath, htext, hsource, if_false]
    · rw [Text.trimmed_iff] at hsource
      cases hnamed : o.file with
      | none => simp only [hcode, hproject, htext, hsource]
      | some path => simp only [hcode, hproject, hfile path hnamed, htext, hsource, if_true]

end CommandLine

end Aquarium
