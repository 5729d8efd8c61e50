import Strips.Proofs.Agreement
import Strips.Proofs.Halting

/-!
# Exit codes

A session that keeps no log and ends says by an exit code how it ended: 0 if a plan was found, 1 if
the attempt to solve had the result that there is none, or was cut short, and 2 if the settings are
wrong or there is no problem to read.

Not every session ends. Four things break one off, and none of them is among the errors that an exit
code reports: an option that asks for a number of expansions and gives none, a path that holds a
null character, a file that is no text in UTF-8, and a fact that no step can keep.

## Main definitions

* `Session.Comes` – what an operation comes to without a log.
* `Session.outcome` – what a session comes to.
* `Session.KeepsContract` – the contract about exit codes.
* `Session.BreaksOff` – what breaks a session off.

## Main results

* `Session.exists_cause` – why a session comes to what it comes to.
* `Session.keepsContract_iff` – what breaks sessions off, and that all others keep the contract.
* `Session.not_keepsContract_bytes` – a file that breaks the session off.
-/

namespace Strips

/-! ### Paths that hold a null character -/

namespace FileTree

variable {t : FileTree}

theorem walk_ne_nullCharacter {l : Location} {parts : List String} :
    t.walk l parts ≠ .error .nullCharacter := by
  fun_induction walk t l parts with
  | case1 l => simp
  | case2 l part rest hdirectory => split <;> simp
  | case3 l rest _ ih => exact ih
  | case4 l rest _ _ ih => exact ih
  | case5 => simp
  | case6 l part rest _ _ _ _ ih => exact ih

theorem null_of_locateRaw {path : String} (h : t.locateRaw path = .error .nullCharacter) :
    Char.ofNat 0 ∈ path.toList := by
  by_contra hno
  rw [locateRaw] at h
  split at h
  · rename_i fault hfault
    rw [pathFault?, if_neg (by simpa using hno)] at hfault
    cases h
    split at hfault <;> cases hfault
  · split at h
    · cases h
    · exact walk_ne_nullCharacter h

theorem read_of_null {path : String} (h : Char.ofNat 0 ∈ path.toList) :
    t.read path = .error ⟨.nullCharacter, path⟩ := by
  have hfault : pathFault? path = some .nullCharacter := by simp [pathFault?, h]
  simp [read, locateRaw, hfault]

/-- Only such a path is refused for a null character. -/
theorem null_of_read {path : String} {e : FileError} (h : t.read path = .error e)
    (hnull : e.fault = .nullCharacter) : Char.ofNat 0 ∈ path.toList := by
  rw [read] at h
  cases hlocate : t.locateRaw path with
  | error fault =>
    rw [hlocate] at h
    cases h
    exact null_of_locateRaw (hlocate.trans (congrArg _ hnull))
  | ok l =>
    rw [hlocate] at h
    dsimp only at h
    split at h
    · cases h
      cases hnull
    · split at h <;> cases h
      cases hnull

end FileTree

/-! ### Sessions without a log -/

namespace Session

/-- In these surroundings and without a log, an operation comes to this, and still keeps no log. -/
def Comes {α : Type} (x : Running (StateM World) α) (w : World) (o : Except Breakdown α) : Prop :=
  ∃ w', (x none).run w = (o.map (·, none), w')

namespace Comes

variable {α β : Type} {w : World}

theorem pure (a : α) : Comes (pure a) w (.ok a) := ⟨w, rfl⟩

theorem throw (b : Breakdown) : Comes (throw b : Running (StateM World) α) w (.error b) := ⟨w, rfl⟩

/-- An operation on the surroundings alone. -/
theorem lift (x : StateM World α) :
    Comes (monadLift x : Running (StateM World) α) w (.ok (x w).1) :=
  ⟨(x w).2, rfl⟩

theorem bind {x : Running (StateM World) α} {f : α → Running (StateM World) β} {a : α}
    {o : Except Breakdown β} (hx : Comes x w (.ok a)) (hf : ∀ w', Comes (f a) w' o) :
    Comes (x >>= f) w o := by
  obtain ⟨w', hx⟩ := hx
  obtain ⟨w'', hf⟩ := hf w'
  refine ⟨w'', ?_⟩
  change (ExceptT.bindCont (m := StateM World) (fun y => f y.1 y.2) ((x none).run w).1 :
    StateM World _) ((x none).run w).2 = _
  rw [hx]
  exact hf

theorem forM {f : α → Running (StateM World) Unit} (hf : ∀ a w, Comes (f a) w (.ok ()))
    (l : List α) : Comes (l.forM f) w (.ok ()) := by
  induction l generalizing w with
  | nil => exact .pure ()
  | cons a rest ih => exact (hf a w).bind fun _ => ih

/-- Nothing is done with a log that is not kept. -/
theorem withLog (operation : RunLog → StateM World (RunLog.Logged α)) :
    Comes (withLog operation) w (.ok none) := ⟨w, rfl⟩

theorem note (event : Event) : Comes (note Host.world event) w (.ok ()) :=
  (Comes.withLog _).bind fun _ => .pure ()

theorem print (lines : List String) : Comes (print Host.world lines) w (.ok ()) :=
  forM (fun line _ => lift (Host.world.print line)) lines

theorem fail (line : String) (event : Event) :
    Comes (fail Host.world line event) w (.ok .failure) :=
  (Comes.print _).bind fun _ => (Comes.note _).bind fun _ => (Comes.withLog _).bind fun _ => .pure _

/-- Whatever a reference planner answers, the session goes on. -/
theorem askReference (p : Problem) :
    ∃ answer, Comes (askReference Host.world p) w (.ok answer) := by
  rw [Session.askReference]
  split
  · exact ⟨_, .pure _⟩
  · exact ⟨_, (Comes.lift _).bind fun _ => .pure _⟩

/-- A result decides how the session ends. -/
theorem conclude (options : Options) (preferences : Preferences) (p : Problem) (graph : Graph)
    (r : PlanResult) (time : Binary64) :
    Comes (conclude Host.world options preferences p graph r time) w (.ok r.status.ending) := by
  refine (Comes.forM (fun _ _ => .note _) _).bind fun _ => ?_
  refine (Comes.note _).bind fun _ => ?_
  refine (Comes.print _).bind fun _ => ?_
  dsimp only
  split
  · obtain ⟨answer, hanswer⟩ := Comes.askReference p
    refine hanswer.bind fun _ => (Comes.print _).bind fun _ => (Comes.note _).bind fun _ => ?_
    exact (Comes.withLog _).bind fun _ => .pure _
  · exact (Comes.withLog _).bind fun _ => .pure _

end Comes

variable {options : Options} {env : Environment} {w : World}

/-! ### What a session comes to -/

/-- What a session comes to. -/
def outcome (options : Options) (env : Environment) (w : World) : Except Breakdown Ending :=
  (run Host.world options env w).1

/-- A session ends with an exit code. -/
def Exits (options : Options) (env : Environment) (w : World) (code : Nat) : Prop :=
  ∃ ending, outcome options env w = .ok ending ∧ ending.exitCode = code

/-- A setting is wrong, or the number of expansions that an option gives is negative. -/
def Misconfigured (options : Options) (env : Environment) : Prop :=
  env.isValid = false ∨ ∃ budget < 0, options.maxLayers = .given budget

/-- There is no problem: no file can be opened, or what it holds is no text or no problem. -/
def Unreadable (options : Options) (w : World) : Prop :=
  (∃ e, w.files.read options.problem = .error e) ∨
    ∃ bytes e, w.files.read options.problem = .ok bytes ∧ Problem.ofBytes bytes = .error e

/-- The session starts with these preferences, and the file holds this problem. -/
def Reads (options : Options) (env : Environment) (w : World) (preferences : Preferences)
    (p : Problem) : Prop :=
  Preferences.of options env = .ok preferences ∧
    ∃ bytes, w.files.read options.problem = .ok bytes ∧ Problem.ofBytes bytes = .ok p

/-- The attempt to solve the problem comes to this result. -/
def Answers (options : Options) (env : Environment) (w : World) (r : PlanResult) : Prop :=
  ∃ preferences p, Reads options env w preferences p ∧
    (p.solve preferences.strictMutexes preferences.maxLayers).round = .done r

/-- The contract about exit codes. -/
structure KeepsContract (options : Options) (env : Environment) (w : World) : Prop where
  ends : ∃ ending, outcome options env w = .ok ending
  solved : Exits options env w 0 ↔ ∃ r, Answers options env w r ∧ r.status = .solved
  unsolved : Exits options env w 1 ↔
    ∃ r, Answers options env w r ∧ (r.status = .unsolvable ∨ r.status = .budgetExhausted)
  refused : Exits options env w 2 ↔ Misconfigured options env ∨ Unreadable options w

/-- What breaks a session off. -/
inductive BreaksOff (options : Options) (env : Environment) (w : World) : Breakdown → Prop
  /-- An option asks for a number of expansions, but gives none. Command lines are read by the
  conventions of the earlier parsers of options here; by those of the later ones this is an error of
  usage, and no session starts. -/
  | blankBudget (henv : env.isValid = true) (hblank : options.maxLayers = .blank) :
      BreaksOff options env w .blankBudget
  /-- The path of the problem file holds a null character. -/
  | path {preferences : Preferences} (hset : Preferences.of options env = .ok preferences)
      (hnull : Char.ofNat 0 ∈ options.problem.toList) :
      BreaksOff options env w (.path ⟨.nullCharacter, options.problem⟩)
  /-- The problem file is no text in UTF-8. -/
  | notText {preferences : Preferences} {bytes : ByteArray}
      (hset : Preferences.of options env = .ok preferences)
      (hread : w.files.read options.problem = .ok bytes) (htext : ¬ bytes.IsValidUTF8) :
      BreaksOff options env w .notText
  /-- The attempt to solve comes to a fact that no step can keep. -/
  | layer {preferences : Preferences} {p : Problem} {g : Graph} {f : Fact}
      (hreads : Reads options env w preferences p)
      (hgraph : p.graph preferences.strictMutexes preferences.maxLayers = .ok g)
      (hhalts : g.Halts f) :
      BreaksOff options env w (.layer (.schema (.distinctArity noopName f.arguments.length)))

/-- How the preferences come out, and why. -/
theorem preferences_cases (options : Options) (env : Environment) :
    (∃ e, Preferences.of options env = .error e ∧ e ≠ .blankBudget ∧ Misconfigured options env) ∨
      (Preferences.of options env = .error .blankBudget ∧ env.isValid = true ∧
        options.maxLayers = .blank) ∨
      ∃ preferences, Preferences.of options env = .ok preferences ∧ ¬ Misconfigured options env ∧
        options.maxLayers ≠ .blank := by
  rw [Preferences.of]
  cases hsetting : env.maxLayers with
  | error text => exact .inl ⟨_, rfl, by simp, .inl (by simp [Environment.isValid, hsetting])⟩
  | ok setting =>
    have hvalid : env.isValid = decide (0 ≤ setting) := by rw [Environment.isValid, hsetting]
    dsimp only
    by_cases hneg : setting < 0
    · rw [if_pos hneg]
      exact .inl ⟨_, rfl, by simp, .inl (by simpa [hvalid] using hneg)⟩
    · rw [if_neg hneg]
      have henv : env.isValid = true := by simpa [hvalid] using hneg
      cases hoption : options.maxLayers with
      | absent =>
        refine .inr (.inr ?_)
        dsimp only [OptionValue.getD]
        rw [if_neg hneg]
        exact ⟨_, rfl, by simp [Misconfigured, henv, hoption], by simp⟩
      | blank => exact .inr (.inl ⟨rfl, henv, rfl⟩)
      | given budget =>
        dsimp only [OptionValue.getD]
        by_cases hbudget : budget < 0
        · rw [if_pos hbudget]
          exact .inl ⟨_, rfl, by simp, .inr ⟨budget, hbudget, hoption⟩⟩
        · rw [if_neg hbudget]
          exact .inr (.inr ⟨_, rfl, by simpa [Misconfigured, henv, hoption] using hbudget, by simp⟩)

/-! ### Computing the outcome -/

/-- Wrong settings are reported. -/
theorem outcome_of_preferences_error {e : PreferencesError}
    (h : Preferences.of options env = .error e) (hne : e ≠ .blankBudget) :
    outcome options env w = .ok .failure := by
  rw [outcome, run, h]
  cases e with
  | settings | negativeBudget => rfl
  | blankBudget => exact absurd rfl hne

theorem outcome_of_blankBudget (h : Preferences.of options env = .error .blankBudget) :
    outcome options env w = .error .blankBudget := by
  rw [outcome, run, h]
  rfl

section

variable {preferences : Preferences} (hlog : options.noLog = true)
  (hset : Preferences.of options env = .ok preferences)
include hlog hset

/-- A session that starts without a log comes to what its work comes to. -/
theorem outcome_of_comes {o : Except Breakdown Ending}
    (hwork : Comes (work Host.world options preferences) w o) : outcome options env w = o := by
  obtain ⟨w', hwork⟩ := hwork
  rw [outcome, run, hset, hlog]
  change (((work Host.world options preferences none).run w).1).map Prod.fst = o
  rw [hwork]
  cases o <;> rfl

theorem outcome_of_readSource_error {b : Breakdown}
    (h : readSource (w.files.read options.problem) = .error b) :
    outcome options env w = .error b := by
  replace h : readSource (Host.world.read options.problem w).1 = .error b := h
  refine outcome_of_comes hlog hset ((Comes.lift _).bind fun _ => ?_)
  rw [h]
  exact .throw b

/-- A file that is refused is reported. -/
theorem outcome_of_refused {e : ReadError}
    (h : readSource (w.files.read options.problem) = .ok (.error e)) :
    outcome options env w = .ok .failure := by
  replace h : readSource (Host.world.read options.problem w).1 = .ok (.error e) := h
  refine outcome_of_comes hlog hset ((Comes.lift _).bind fun _ => ?_)
  rw [h]
  exact .fail _ _

/-- An attempt to solve decides how the session ends. -/
theorem outcome_of_solve {p : Problem}
    (h : readSource (w.files.read options.problem) = .ok (.ok p)) {o : Except Breakdown Ending}
    (hround : (∃ r, (p.solve preferences.strictMutexes preferences.maxLayers).round = .done r ∧
        o = .ok r.status.ending) ∨
      ∃ e, (p.solve preferences.strictMutexes preferences.maxLayers).round = .failed (.layer e) ∧
        o = .error (.layer e)) :
    outcome options env w = o := by
  replace h : readSource (Host.world.read options.problem w).1 = .ok (.ok p) := h
  -- lines that are printed on request change nothing
  have hprints : ∀ (asked : Bool) (lines : List String) {x : Running (StateM World) Ending},
      (∀ w, Comes x w o) → ∀ w,
      Comes (if asked then print Host.world lines >>= fun _ => x else x) w o := by
    intro asked lines x hx w
    split
    · exact (Comes.print _).bind hx
    · exact hx w
  refine outcome_of_comes hlog hset ((Comes.lift _).bind fun _ => ?_)
  rw [h]
  refine (Comes.note _).bind (hprints _ _ fun _ => ?_)
  refine (Comes.lift _).bind (hprints _ _ fun _ => ?_)
  obtain ⟨r, hdone, rfl⟩ | ⟨e, hfailed, rfl⟩ := hround
  · rw [hdone]
    exact (Comes.lift _).bind fun _ => .conclude ..
  · rw [hfailed]
    exact .throw _

end

/-! ### Causes -/

/-- The problem that the session reads. -/
theorem Reads.readSource_eq {preferences : Preferences} {p : Problem}
    (h : Reads options env w preferences p) :
    readSource (w.files.read options.problem) = .ok (.ok p) := by
  obtain ⟨-, bytes, hread, hproblem⟩ := h
  simp only [hread, readSource, hproblem]

/-- The schemas of the problem that the session reads are regular. -/
theorem Reads.regular {preferences : Preferences} {p : Problem}
    (h : Reads options env w preferences p) : ∀ s ∈ p.schemas, s.Regular := by
  obtain ⟨-, bytes, -, hproblem⟩ := h
  rw [Problem.ofBytes] at hproblem
  split at hproblem
  · cases hproblem
  · rename_i text htext
    cases hparse : Problem.parse (.ofList (Problem.normalizeLines text.toList)) with
    | error e =>
      rw [hparse] at hproblem
      cases hproblem
    | ok p' =>
      rw [hparse] at hproblem
      obtain rfl := Except.ok.inj hproblem
      exact Problem.regular_of_parse hparse

theorem Reads.exists_graph {preferences : Preferences} {p : Problem}
    (h : Reads options env w preferences p) :
    ∃ g, p.graph preferences.strictMutexes preferences.maxLayers = .ok g := by
  rw [Problem.graph_eq h.regular, if_neg (by omega)]
  exact ⟨_, rfl⟩

theorem ofBytes_eq_notText_iff {bytes : ByteArray} :
    Problem.ofBytes bytes = .error .notText ↔ ¬ bytes.IsValidUTF8 := by
  rw [Problem.ofBytes, String.fromUTF8?]
  by_cases h : bytes.IsValidUTF8
  · simp only [h, not_true, iff_false, dif_pos]
    cases Problem.parse _ <;> simp [Except.mapError]
  · simp [h]

theorem outcome_of_answers (hlog : options.noLog = true) {r : PlanResult}
    (h : Answers options env w r) : outcome options env w = .ok r.status.ending := by
  obtain ⟨preferences, p, hreads, hdone⟩ := h
  exact outcome_of_solve hlog hreads.1 hreads.readSource_eq (.inl ⟨r, hdone, rfl⟩)

/-- What breaks a session off is what it comes to. -/
theorem outcome_of_breaksOff (hlog : options.noLog = true) {b : Breakdown}
    (h : BreaksOff options env w b) : outcome options env w = .error b := by
  cases h with
  | blankBudget henv hblank =>
    obtain ⟨_, -, -, hwrong⟩ | ⟨hset, -⟩ | ⟨_, -, -, hgiven⟩ := preferences_cases options env
    · simp [Misconfigured, henv, hblank] at hwrong
    · exact outcome_of_blankBudget hset
    · exact absurd hblank hgiven
  | path hset hnull =>
    refine outcome_of_readSource_error hlog hset ?_
    rw [FileTree.read_of_null hnull]
    rfl
  | notText hset hread htext =>
    refine outcome_of_readSource_error hlog hset ?_
    simp only [hread, readSource, ofBytes_eq_notText_iff.2 htext]
  | layer hreads hgraph hhalts =>
    refine outcome_of_solve hlog hreads.1 hreads.readSource_eq (.inr ⟨_, ?_, rfl⟩)
    rw [Problem.round_solve hgraph]
    exact Problem.solve_of_halts hreads.regular hgraph hhalts

/-- **Every session has a cause to end as it does or to break off.** -/
theorem exists_cause (hlog : options.noLog = true) :
    (outcome options env w = .ok .failure ∧ (Misconfigured options env ∨ Unreadable options w)) ∨
      (∃ r, Answers options env w r) ∨ ∃ b, BreaksOff options env w b := by
  obtain ⟨e, hset, hne, hwrong⟩ | ⟨-, henv, hblank⟩ | ⟨preferences, hset, -⟩ :=
    preferences_cases options env
  · exact .inl ⟨outcome_of_preferences_error hset hne, .inl hwrong⟩
  · exact .inr (.inr ⟨_, .blankBudget henv hblank⟩)
  cases hread : w.files.read options.problem with
  | error e =>
    by_cases hnull : e.fault = .nullCharacter
    · exact .inr (.inr ⟨_, .path hset (FileTree.null_of_read hread hnull)⟩)
    · have hrefused : readSource (w.files.read options.problem) = .ok (.error (.file e)) := by
        simp only [hread, readSource, if_neg hnull]
      exact .inl ⟨outcome_of_refused hlog hset hrefused, .inr (.inl ⟨e, hread⟩)⟩
  | ok bytes =>
    cases hproblem : Problem.ofBytes bytes with
    | error e =>
      cases e with
      | notText =>
        exact .inr (.inr ⟨_, .notText hset hread (ofBytes_eq_notText_iff.1 hproblem)⟩)
      | grammar e =>
        have hrefused : readSource (w.files.read options.problem) = .ok (.error (.grammar e)) := by
          simp only [hread, readSource, hproblem]
        exact .inl ⟨outcome_of_refused hlog hset hrefused, .inr (.inr ⟨bytes, _, hread, hproblem⟩)⟩
    | ok p =>
      have hreads : Reads options env w preferences p := ⟨hset, bytes, hread, hproblem⟩
      obtain ⟨g, hgraph⟩ := hreads.exists_graph
      obtain ⟨r, hdone⟩ | ⟨f, hhalts⟩ := Problem.exists_done_or_halts hreads.regular hgraph
      · exact .inr (.inl ⟨r, _, p, hreads, (Problem.round_solve hgraph).trans hdone⟩)
      · exact .inr (.inr ⟨_, .layer hreads hgraph hhalts⟩)

theorem outcome_of_misconfigured (h : Misconfigured options env) :
    outcome options env w = .ok .failure := by
  obtain ⟨_, hset, hne, -⟩ | ⟨-, henv, hblank⟩ | ⟨_, -, hright, -⟩ := preferences_cases options env
  · exact outcome_of_preferences_error hset hne
  · simp [Misconfigured, henv, hblank] at h
  · exact absurd h hright

/-- An attempt that comes to a result has a problem to solve. -/
theorem Answers.not_unreadable {r : PlanResult} (h : Answers options env w r) :
    ¬ Unreadable options w := by
  obtain ⟨preferences, p, ⟨-, bytes, hread, hproblem⟩, -⟩ := h
  rintro (⟨e, herror⟩ | ⟨bytes', e, hread', herror⟩)
  · cases hread.symm.trans herror
  · obtain rfl := Except.ok.inj (hread.symm.trans hread')
    cases hproblem.symm.trans herror

/-- The exit codes of sessions that nothing breaks off. -/
theorem exits_iff (hlog : options.noLog = true) (h : ∀ b, ¬ BreaksOff options env w b)
    {code : Nat} : Exits options env w code ↔
      (code = 2 ∧ (Misconfigured options env ∨ Unreadable options w)) ∨
      ∃ r, Answers options env w r ∧ r.status.ending.exitCode = code := by
  constructor
  · rintro ⟨ending, hout, rfl⟩
    rcases exists_cause hlog with ⟨hfailure, hrefused⟩ | ⟨r, hr⟩ | ⟨b, hb⟩
    · obtain rfl := Except.ok.inj (hout.symm.trans hfailure)
      exact .inl ⟨rfl, hrefused⟩
    · obtain rfl := Except.ok.inj (hout.symm.trans (outcome_of_answers hlog hr))
      exact .inr ⟨r, hr, rfl⟩
    · exact absurd hb (h b)
  · rintro (⟨rfl, hwrong | hunreadable⟩ | ⟨r, hr, rfl⟩)
    · exact ⟨.failure, outcome_of_misconfigured hwrong, rfl⟩
    · rcases exists_cause hlog with ⟨hfailure, -⟩ | ⟨r, hr⟩ | ⟨b, hb⟩
      · exact ⟨.failure, hfailure, rfl⟩
      · exact absurd hunreadable hr.not_unreadable
      · exact absurd hb (h b)
    · exact ⟨_, outcome_of_answers hlog hr, rfl⟩

/-- **Sessions that nothing breaks off keep the contract.** -/
theorem keepsContract_of_not_breaksOff (hlog : options.noLog = true)
    (h : ∀ b, ¬ BreaksOff options env w b) : KeepsContract options env w := by
  have hcode : ∀ status : PlanStatus, (status.ending.exitCode = 0 ↔ status = .solved) ∧
      (status.ending.exitCode = 1 ↔ status = .unsolvable ∨ status = .budgetExhausted) ∧
      status.ending.exitCode ≠ 2 := by
    intro status
    cases status <;> decide
  refine ⟨?_, ?_, ?_, ?_⟩
  · rcases exists_cause hlog with ⟨hfailure, -⟩ | ⟨r, hr⟩ | ⟨b, hb⟩
    · exact ⟨_, hfailure⟩
    · exact ⟨_, outcome_of_answers hlog hr⟩
    · exact absurd hb (h b)
  · simp [exits_iff hlog h, hcode]
  · simp [exits_iff hlog h, hcode]
  · simp [exits_iff hlog h, hcode]

/-- A session that breaks off does not keep the contract. -/
theorem KeepsContract.not_breaksOff (hlog : options.noLog = true)
    (h : KeepsContract options env w) (b : Breakdown) : ¬ BreaksOff options env w b := by
  intro hb
  obtain ⟨ending, hending⟩ := h.ends
  cases hending.symm.trans (outcome_of_breaksOff hlog hb)

/-- **The contract about exit codes**, for a session that keeps no log: four things break a session
off, and all others keep the contract. Among these are all sessions whose options give what they ask
for, with a proper path, a text in UTF-8, and a problem that uses the name of the constraints for
nothing else.

This is about the session, not about the machine that it runs on: every line can be printed,
whatever the characters in it, and a computation may go as deep as it has to. -/
theorem keepsContract_iff (options : Options) (env : Environment) (w : World)
    (hlog : options.noLog = true) :
    (∀ b, outcome options env w = .error b ↔ BreaksOff options env w b) ∧
      (KeepsContract options env w ↔ ∀ b, ¬ BreaksOff options env w b) ∧
      (options.maxLayers ≠ .blank → Char.ofNat 0 ∉ options.problem.toList →
        (∀ bytes, w.files.read options.problem = .ok bytes → bytes.IsValidUTF8 ∧
          ∀ p, Problem.ofBytes bytes = .ok p → p.ReservesDistinct) →
        KeepsContract options env w) := by
  refine ⟨fun b => ⟨fun hout => ?_, outcome_of_breaksOff hlog⟩,
    ⟨KeepsContract.not_breaksOff hlog, keepsContract_of_not_breaksOff hlog⟩,
    fun hgiven hpath hfile => keepsContract_of_not_breaksOff hlog fun b hb => ?_⟩
  · rcases exists_cause hlog with ⟨hfailure, -⟩ | ⟨r, hr⟩ | ⟨b', hb⟩
    · cases hout.symm.trans hfailure
    · cases hout.symm.trans (outcome_of_answers hlog hr)
    · obtain rfl := Except.error.inj (hout.symm.trans (outcome_of_breaksOff hlog hb))
      exact hb
  · cases hb with
    | blankBudget henv hblank => exact hgiven hblank
    | path hset hnull => exact hpath hnull
    | notText hset hread htext => exact htext (hfile _ hread).1
    | layer hreads hgraph hhalts =>
      have hreg := hreads.regular
      obtain ⟨-, bytes, hread, hproblem⟩ := hreads
      exact Problem.not_halts hreg ((hfile bytes hread).2 _ hproblem) hgraph hhalts

/-- A working directory with one file. -/
def worldOf (bytes : ByteArray) : World :=
  { files := { FileTree.empty with files := [(["work", "problem.txt"], bytes)] } }

/-- Who has to wake before rising gets a plan of both steps. With a limit of one level the attempt
is cut short. -/
theorem keepsContract_rising : ∃ free limited,
    CommandLine.parse ["problem.txt", "--no-log"] = .ok free ∧
    CommandLine.parse ["problem.txt", "--no-log", "--max-layers", "1"] = .ok limited ∧
    free.noLog = true ∧ KeepsContract free [] (worldOf Problem.risingText.toUTF8) ∧
    outcome free [] (worldOf Problem.risingText.toUTF8) = .ok .planFound ∧
    limited.noLog = true ∧ KeepsContract limited [] (worldOf Problem.risingText.toUTF8) ∧
    outcome limited [] (worldOf Problem.risingText.toUTF8) = .ok .noPlan := by
  have hread : (worldOf Problem.risingText.toUTF8).files.read "problem.txt" =
      .ok Problem.risingText.toUTF8 := by
    decide +kernel
  have hreserves : (Problem.ofBytes Problem.risingText.toUTF8).toOption.all
      (fun p => decide p.ReservesDistinct) = true := by
    decide +kernel
  have hpath : Char.ofNat 0 ∉ "problem.txt".toList := by decide +kernel
  have hkeeps : ∀ limit : OptionValue Int, limit ≠ .blank →
      KeepsContract { problem := "problem.txt", noLog := true, maxLayers := limit } []
        (worldOf Problem.risingText.toUTF8) := by
    refine fun limit hlimit =>
      (keepsContract_iff _ [] _ rfl).2.2 hlimit hpath fun bytes hbytes => ?_
    obtain rfl := Except.ok.inj (hread.symm.trans hbytes)
    refine ⟨by decide +kernel, fun p hp => ?_⟩
    rw [hp] at hreserves
    exact of_decide_eq_true hreserves
  exact ⟨{ problem := "problem.txt", noLog := true },
    { problem := "problem.txt", noLog := true, maxLayers := .given 1 },
    by decide +kernel, by decide +kernel, rfl, hkeeps .absent (by decide), by decide +kernel,
    rfl, hkeeps (.given 1) (by decide), by decide +kernel⟩

/-- **A file that is no text breaks the session off**, and so the contract is not kept. -/
theorem not_keepsContract_bytes : ∃ options,
    CommandLine.parse ["problem.txt", "--no-log"] = .ok options ∧ options.noLog = true ∧
    options.crossCheck = false ∧ Unreadable options (worldOf ⟨#[0xff]⟩) ∧
    outcome options [] (worldOf ⟨#[0xff]⟩) = .error .notText ∧
    ¬ KeepsContract options [] (worldOf ⟨#[0xff]⟩) := by
  have hset : Preferences.of { problem := "problem.txt", noLog := true } [] =
      .ok ⟨false, false, 0, some "logs"⟩ := by
    decide +kernel
  have hread : (worldOf ⟨#[0xff]⟩).files.read "problem.txt" = .ok ⟨#[0xff]⟩ := by decide +kernel
  have htext : ¬ (ByteArray.mk #[0xff]).IsValidUTF8 := by decide +kernel
  have hbreaks : BreaksOff { problem := "problem.txt", noLog := true } [] (worldOf ⟨#[0xff]⟩)
      .notText := .notText hset hread htext
  exact ⟨{ problem := "problem.txt", noLog := true }, by decide +kernel, rfl, rfl,
    .inr ⟨_, .notText, hread, ofBytes_eq_notText_iff.2 htext⟩, outcome_of_breaksOff rfl hbreaks,
    fun h => h.not_breaksOff rfl _ hbreaks⟩

end Session

end Strips
