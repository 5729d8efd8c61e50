import Mathlib.Data.List.Basic
import Strips.Proofs.FileTrees
import Strips.RunLog

/-!
# The records of runs

A log writes two files for each run, in the directory of the run. What has been written stays as it
is until a later run writes where it is: no call touches anything but the files of the present run.

The directory of a run is named after a second and a mode, and it may exist already. So runs of one
mode that start within a second share a directory, as do those that are given one timestamp, and the
record of the later run takes the place of the earlier one. Runs with different names do not meet.

## Main definitions

* `RunLog.Call`, `RunLog.calls` – calls of a log, each at some time, whether or not they fail.
* `RunLog.runName`, `RunLog.recordPaths` – the names of runs, and their files.

## Main results

* `RunLog.changes_calls` – calls change the files of runs.
* `RunLog.records_kept` – what later runs leave alone.
* `RunLog.holds_of_finish` – the files of a finished run hold its record.
* `RunLog.not_records_kept` – a run whose record is lost.
-/

namespace Strips

namespace RunLog

/-! ### Calls -/

/-- A call of a log. -/
inductive Call where
  | start (problemFile mode : String) (timestamp : Option String)
  | note (event : Event)
  | finish (success : Bool)
  deriving DecidableEq, Repr

/-- What an operation leaves: the log and its surroundings. -/
def after {α : Type} (operation : StateM World (Logged α)) (w : World) : RunLog × World :=
  ((operation w).1.2, (operation w).2)

/-- A log and its surroundings after a call, whether or not it fails. The clock is read once at
most, and shows the given time. -/
def call (s : RunLog × World) (c : Instant × Call) : RunLog × World :=
  let world := { s.2 with clock := c.1 }
  match c.2 with
  | .start problemFile mode timestamp =>
    after (s.1.start Host.world problemFile mode timestamp) world
  | .note event => after (s.1.note Host.world event) world
  | .finish success => after (s.1.finish Host.world success) world

/-- A log and its surroundings after a number of calls. -/
def calls (s : RunLog × World) (cs : List (Instant × Call)) : RunLog × World := cs.foldl call s

/-- The name of the directory of a run that is started at a time. -/
def runName (time : Instant) (mode : String) (timestamp : Option String) : String :=
  timestamp.getD (Calendar.stamp time) ++ "_" ++ mode

/-- The name of the run that a call starts. -/
def Call.runName? (c : Instant × Call) : Option String :=
  match c.2 with
  | .start _ mode timestamp => some (runName c.1 mode timestamp)
  | _ => none

/-- The files of a run. -/
def recordPaths (directory : Path) : List Path := [jsonPath directory, reportPath directory]

/-! ### What one call does -/

theorem run_pure {α : Type} (a : α) (w : World) : (pure a : StateM World α) w = (a, w) := rfl

theorem run_bind {α β : Type} (x : StateM World α) (f : α → StateM World β) (w : World) :
    (x >>= f) w = f (x w).1 (x w).2 := rfl

/-- Both forms of a record, written to a directory. -/
def writeRecord (files : FileTree) (directory : Path) (r : RunRecord) :
    Except FileError Unit × FileTree :=
  match files.writeFile (jsonPath directory) r.json.text.toUTF8 with
  | (.error e, files) => (.error e, files)
  | (.ok _, files) => files.writeFile (reportPath directory) r.report.toUTF8

theorem changes_writeRecord (files : FileTree) (directory : Path) (r : RunRecord) :
    files.Changes (writeRecord files directory r).2 (recordPaths directory) := by
  have hjson := files.changes_writeFile (jsonPath directory) r.json.text.toUTF8
  have hjson : files.Changes _ (recordPaths directory) := hjson.mono (by simp [recordPaths])
  rw [writeRecord]
  split
  · rename_i heq
    rw [heq] at hjson
    exact hjson
  · rename_i _ files' heq
    rw [heq] at hjson
    have hreport := files'.changes_writeFile (reportPath directory) r.report.toUTF8
    exact hjson.trans (hreport.mono (by simp [recordPaths]))

/-- The record that is saved: with the time since the start of the run. -/
def timed (log : RunLog) (w : World) (r : RunRecord) : RunRecord :=
  match log.startTime with
  | some time => { r with duration := w.clock - time }
  | none => r

/-- Saving writes the record, with its duration, to the directory of the run. -/
theorem save_eq (log : RunLog) {record : RunRecord} {directory : Path}
    (hrecord : log.record = some record) (hdirectory : log.runDirectory = some directory)
    (w : World) :
    let r := log.timed w record
    ∃ w' : World, w'.files = (writeRecord w.files directory r).2 ∧
      log.save Host.world w =
        (((writeRecord w.files directory r).1.mapError .file,
          { log with record := some r }), w') := by
  obtain ⟨logs, _, startTime, _⟩ := log
  obtain rfl : _ = some record := hrecord
  obtain rfl : _ = some directory := hdirectory
  -- with or without a reading of the clock, two writes follow, the second if the first is done
  cases startTime
  all_goals
    dsimp only [timed, writeRecord, save, Host.world, World.withFiles, run_bind, run_pure]
    split
    · rename_i heq
      simp only [heq, Except.mapError]
      exact ⟨_, rfl, rfl⟩
    · rename_i _ files heq
      simp only [heq, run_bind]
      generalize files.writeFile (reportPath directory) _ = result
      obtain ⟨_ | _, files'⟩ := result
      all_goals exact ⟨_, rfl, rfl⟩

/-- The runs are the same, and only the files of the present one may have changed. -/
structure Keeps (s s' : RunLog × World) : Prop where
  directory : s'.1.directory = s.1.directory
  runDirectory : s'.1.runDirectory = s.1.runDirectory
  changes : s.2.files.Changes s'.2.files (s.1.runDirectory.toList.flatMap recordPaths)

theorem Keeps.refl (s : RunLog × World) : Keeps s s := ⟨rfl, rfl, .refl _ _⟩

theorem keeps_save (log : RunLog) (w : World) : Keeps (log, w) (after (log.save Host.world) w) := by
  obtain ⟨logs, record, startTime, runDirectory⟩ := log
  cases record with
  | none => exact .refl _
  | some record =>
    cases runDirectory with
    | none => exact .refl _
    | some directory =>
      obtain ⟨w', hfiles, hsave⟩ :=
        save_eq ⟨logs, some record, startTime, some directory⟩ rfl rfl w
      rw [after, hsave]
      refine ⟨rfl, rfl, ?_⟩
      rw [hfiles]
      exact changes_writeRecord w.files directory _

theorem keeps_note (log : RunLog) (event : Event) (w : World) :
    Keeps (log, w) (after (log.note Host.world event) w) := by
  obtain ⟨logs, record, startTime, runDirectory⟩ := log
  cases record with
  | none => exact .refl _
  | some record =>
    cases hwritten : event.isWritten with
    | true =>
      obtain ⟨hdirectory, hrun, hchanges⟩ :=
        keeps_save ⟨logs, some (record.note event), startTime, runDirectory⟩ w
      simp only [note, hwritten, if_true]
      exact ⟨hdirectory, hrun, hchanges⟩
    | false =>
      simp only [note, hwritten, Bool.false_eq_true, if_false]
      exact ⟨rfl, rfl, .refl _ _⟩

/-- Finishing saves the record as it is then. -/
theorem finish_eq {log : RunLog} {record : RunRecord} {time : Instant} {directory : Path}
    (hrecord : log.record = some record) (htime : log.startTime = some time)
    (hdirectory : log.runDirectory = some directory) (success : Bool) (w : World) :
    log.finish Host.world success w =
      let saved := { log with record := some { record with success } }.save Host.world w
      ((saved.1.1.map fun _ => jsonPath directory, saved.1.2), saved.2) := by
  simp only [finish, hrecord, htime, hdirectory, run_bind]
  generalize save Host.world _ w = saved
  obtain ⟨⟨_ | _, log'⟩, w'⟩ := saved
  all_goals rfl

theorem keeps_finish (log : RunLog) (success : Bool) (w : World) :
    Keeps (log, w) (after (log.finish Host.world success) w) := by
  obtain ⟨logs, record, startTime, runDirectory⟩ := log
  cases record with
  | none => exact .refl _
  | some record =>
    cases startTime with
    | none => exact .refl _
    | some time =>
      cases runDirectory with
      | none => exact .refl _
      | some directory =>
        obtain ⟨hdirectory, hrun, hchanges⟩ :=
          keeps_save ⟨logs, some { record with success }, some time, some directory⟩ w
        rw [after, finish_eq rfl rfl rfl]
        exact ⟨hdirectory, hrun, hchanges⟩

/-- Starting a run changes no file. The run is the present one even if its directory cannot be
made. -/
theorem start_spec (log : RunLog) (problemFile mode : String) (timestamp : Option String)
    (w : World) :
    let s := after (log.start Host.world problemFile mode timestamp) w
    s.1.directory = log.directory ∧
    s.1.runDirectory = some (log.directory.join (runName w.clock mode timestamp)) ∧
    w.files.Changes s.2.files [] := by
  have hmake := w.files.changes_makeDirectories
    (log.directory.join (runName w.clock mode timestamp))
  rw [runName] at hmake ⊢
  simp only [after, start, Host.world, World.withFiles, run_bind]
  generalize w.files.makeDirectories _ = made at hmake ⊢
  obtain ⟨_ | _, files⟩ := made
  all_goals exact ⟨rfl, rfl, hmake⟩

/-! ### What a sequence of calls does -/

/-- The names of the runs that calls start. -/
def runNames (cs : List (Instant × Call)) : List String := cs.filterMap Call.runName?

/-- What a call does to the files. -/
theorem call_spec (s : RunLog × World) (c : Instant × Call) :
    (call s c).1.directory = s.1.directory ∧
    (call s c).1.runDirectory = ((Call.runName? c).map s.1.directory.join).or s.1.runDirectory ∧
    s.2.files.Changes (call s c).2.files (s.1.runDirectory.toList.flatMap recordPaths) := by
  obtain ⟨log, w⟩ := s
  obtain ⟨time, ⟨problemFile, mode, timestamp⟩ | event | success⟩ := c
  · obtain ⟨hdirectory, hrun, hchanges⟩ :=
      log.start_spec problemFile mode timestamp { w with clock := time }
    dsimp only [call, Call.runName?]
    exact ⟨hdirectory, hrun, hchanges.mono (List.nil_subset _)⟩
  · obtain ⟨hdirectory, hrun, hchanges⟩ := log.keeps_note event { w with clock := time }
    dsimp only [call, Call.runName?]
    exact ⟨hdirectory, hrun, hchanges⟩
  · obtain ⟨hdirectory, hrun, hchanges⟩ := log.keeps_finish success { w with clock := time }
    dsimp only [call, Call.runName?]
    exact ⟨hdirectory, hrun, hchanges⟩

theorem recordPaths_subset {ds es : List Path} (h : ds ⊆ es) :
    ds.flatMap recordPaths ⊆ es.flatMap recordPaths := by
  intro p hp
  obtain ⟨d, hd, hp⟩ := List.mem_flatMap.1 hp
  exact List.mem_flatMap.2 ⟨d, h hd, hp⟩

/-- **Calls change the files of runs**: of the present one, and of those that are started. -/
theorem changes_calls : ∀ (cs : List (Instant × Call)) (s : RunLog × World),
    s.2.files.Changes (calls s cs).2.files ((s.1.runDirectory.toList ++
      (runNames cs).map s.1.directory.join).flatMap recordPaths)
  | [], s => .refl _ _
  | c :: cs, s => by
    obtain ⟨hdirectory, hrun, hchanges⟩ := call_spec s c
    have hrest := changes_calls cs (call s c)
    rw [hdirectory, hrun] at hrest
    refine (hchanges.mono ?_).trans (hrest.mono ?_)
    · exact recordPaths_subset (List.subset_append_left _ _)
    · refine recordPaths_subset ?_
      rw [runNames, runNames, List.filterMap_cons]
      cases Call.runName? c with
      | none => exact List.Subset.refl _
      | some name => exact List.subset_append_right _ _

/-- Whether the first of some calls starts a run. -/
def Starts (cs : List (Instant × Call)) : Prop := (cs.head?.bind Call.runName?).isSome = true

/-- After a start only the files of runs that are started are changed. -/
theorem changes_calls_of_starts {cs : List (Instant × Call)} (hcs : Starts cs)
    (s : RunLog × World) : s.2.files.Changes (calls s cs).2.files
      (((runNames cs).map s.1.directory.join).flatMap recordPaths) := by
  cases cs with
  | nil => cases hcs
  | cons c later =>
    obtain ⟨time, ⟨problemFile, mode, timestamp⟩ | event | success⟩ := c
    · obtain ⟨hdirectory, hrun, hstart⟩ :=
        s.1.start_spec problemFile mode timestamp { s.2 with clock := time }
      have hlater := changes_calls later
        (after (s.1.start Host.world problemFile mode timestamp) { s.2 with clock := time })
      rw [hdirectory, hrun] at hlater
      rw [calls, List.foldl_cons]
      dsimp only [call]
      exact (hstart.mono (List.nil_subset _)).trans hlater
    · cases hcs
    · cases hcs

/-- The name of a run is one part of a path, if it has no slash. -/
theorem isName_runName {time : Instant} {mode : String} {timestamp : Option String}
    (h : '/' ∉ (runName time mode timestamp).toList) : IsName (runName time mode timestamp) := by
  have hmem : '_' ∈ (runName time mode timestamp).toList := by
    rw [runName, String.toList_append, String.toList_append]
    exact List.mem_append_left _ (List.mem_append_right _ List.mem_cons_self)
  refine ⟨h, ?_, ?_, ?_⟩
  all_goals
    intro heq
    rw [heq] at hmem
    revert hmem
    decide

theorem isName_json : IsName "execution.json" := ⟨by decide, by decide, by decide, by decide⟩

theorem isName_report : IsName "execution.txt" := ⟨by decide, by decide, by decide, by decide⟩

/-- The files of a run are in a directory of its name. -/
theorem exists_of_mem_recordPaths {t : FileTree} {logs p : Path} {name : String}
    (hname : IsName name) (hp : p ∈ recordPaths (logs.join name)) {l : Location}
    (hl : t.locate p = .ok l) : ∃ k x, l = k ++ [name] ++ [x] := by
  rcases List.mem_pair.1 hp with rfl | rfl
  · obtain ⟨k, hk⟩ := FileTree.exists_of_locate_join_join hname isName_json hl
    exact ⟨k, _, hk⟩
  · obtain ⟨k, hk⟩ := FileTree.exists_of_locate_join_join hname isName_report hl
    exact ⟨k, _, hk⟩

/-- **Later runs leave the records of others alone.** Whatever is called from a start on, a file
keeps its contents if no run that is started then has its files there. So the files of a run are
kept if these runs have other names than it, all of them one part of a path. -/
theorem records_kept {s : RunLog × World} {cs : List (Instant × Call)} (hcs : Starts cs) :
    (∀ l, (∀ name ∈ runNames cs, ∀ p ∈ recordPaths (s.1.directory.join name),
        (calls s cs).2.files.locate p ≠ .ok l) →
      (calls s cs).2.files.contents? l = s.2.files.contents? l) ∧
    ∀ name, IsName name → (∀ other ∈ runNames cs, IsName other ∧ other ≠ name) →
      ∀ p ∈ recordPaths (s.1.directory.join name), ∀ l, s.2.files.locate p = .ok l →
        (calls s cs).2.files.contents? l = s.2.files.contents? l := by
  have hkept : ∀ l, (∀ name ∈ runNames cs, ∀ p ∈ recordPaths (s.1.directory.join name),
      (calls s cs).2.files.locate p ≠ .ok l) →
        (calls s cs).2.files.contents? l = s.2.files.contents? l := by
    intro l hl
    refine (changes_calls_of_starts hcs s).contents l fun p hp => ?_
    obtain ⟨d, hd, hp⟩ := List.mem_flatMap.1 hp
    obtain ⟨name, hname, rfl⟩ := List.mem_map.1 hd
    exact hl name hname p hp
  refine ⟨hkept, fun name hname hothers p hp l hl => hkept l fun other hother q hq hlead => ?_⟩
  -- both paths end with the name of the run and that of a file
  obtain ⟨hisName, hne⟩ := hothers other hother
  obtain ⟨k, x, rfl⟩ := exists_of_mem_recordPaths hname hp hl
  obtain ⟨k', x', heq⟩ := exists_of_mem_recordPaths hisName hq hlead
  obtain ⟨heq, -⟩ := List.append_inj' heq rfl
  obtain ⟨-, hnames⟩ := List.append_inj' heq rfl
  exact hne (List.singleton_inj.1 hnames).symm

/-! ### What a finished run has in its files -/

/-- Both files of a run hold its record. -/
structure Holds (t : FileTree) (directory : Path) (r : RunRecord) : Prop where
  json : ∃ l, t.locate (jsonPath directory) = .ok l ∧ t.contents? l = some r.json.text.toUTF8
  report : ∃ l, t.locate (reportPath directory) = .ok l ∧ t.contents? l = some r.report.toUTF8

/-- A record that is written is there. The second file is not the first one. -/
theorem holds_of_writeRecord {t t' : FileTree} {directory : Path} {r : RunRecord}
    (h : writeRecord t directory r = (.ok (), t')) : Holds t' directory r := by
  rw [writeRecord] at h
  split at h
  · cases h
  · rename_i middle hjson
    refine ⟨?_, FileTree.contents?_of_writeFile_ok h⟩
    obtain ⟨l, hl, hcontents⟩ := FileTree.contents?_of_writeFile_ok hjson
    have hchanges := middle.changes_writeFile (reportPath directory) r.report.toUTF8
    rw [h] at hchanges
    refine ⟨l, hchanges.grows.locate_eq_ok hl, (hchanges.contents l fun p hp hlead => ?_).trans
      hcontents⟩
    obtain rfl := List.mem_singleton.1 hp
    obtain ⟨k, rfl⟩ := FileTree.exists_of_locate_join isName_json hl
    obtain ⟨k', heq⟩ := FileTree.exists_of_locate_join isName_report hlead
    obtain ⟨-, hnames⟩ := List.append_inj' heq rfl
    exact absurd (List.singleton_inj.1 hnames) (by decide)

/-- **A finished run has its record in its files**, whatever was there before. -/
theorem holds_of_finish {log : RunLog} {success : Bool} {w : World} {p : Path}
    (h : (log.finish Host.world success w).1.1 = .ok p) :
    ∃ r directory, (after (log.finish Host.world success) w).1.record = some r ∧
      (after (log.finish Host.world success) w).1.runDirectory = some directory ∧
      Holds (after (log.finish Host.world success) w).2.files directory r := by
  obtain ⟨logs, record, startTime, runDirectory⟩ := log
  cases record with
  | none => cases h
  | some record =>
    cases startTime with
    | none => cases h
    | some time =>
      cases runDirectory with
      | none => cases h
      | some directory =>
        obtain ⟨w', hfiles, hsave⟩ :=
          save_eq ⟨logs, some { record with success }, some time, some directory⟩ rfl rfl w
        rw [finish_eq rfl rfl rfl, hsave] at h
        rw [after, finish_eq rfl rfl rfl, hsave]
        refine ⟨_, directory, rfl, rfl, ?_⟩
        rw [hfiles]
        refine holds_of_writeRecord (Prod.ext ?_ rfl)
        generalize writeRecord w.files directory _ = written at h ⊢
        obtain ⟨_ | _, files⟩ := written
        · cases h
        · rfl

/-! ### Two runs -/

/-- A run that is finished within a quarter of a second. -/
def shortRun (start : Instant) (problemFile mode : String) (success : Bool) :
    List (Instant × Call) :=
  [(start, .start problemFile mode none), (start + 250000, .finish success)]

/-- A log in an empty directory, after a first run. -/
def afterFirstRun : RunLog × World :=
  match RunLog.open Host.world "logs" {} with
  | (.ok log, w) => calls (log, w) (shortRun 0 "first.txt" "plain" true)
  | (.error _, w) => (⟨Path.ofString "logs", none, none, none⟩, w)

/-- Where the first run has its record. -/
def firstRecord : Location := ["work", "logs", "19700101_000000_plain", "execution.json"]

/-- A second run in another mode keeps the record of the first one, in the same second. -/
theorem records_kept_modes : Starts (shortRun 500000 "second.txt" "strict" false) ∧
    ∃ l b, afterFirstRun.2.files.contents? l = some b ∧
      (calls afterFirstRun
        (shortRun 500000 "second.txt" "strict" false)).2.files.contents? l = some b := by
  have hstarts : Starts (shortRun 500000 "second.txt" "strict" false) := rfl
  have hnames : runNames (shortRun 500000 "second.txt" "strict" false) =
      [runName 500000 "strict" none] := rfl
  have hne : runName 500000 "strict" none ≠ runName 0 "plain" none := by decide +kernel
  have hname : IsName (runName 0 "plain" none) := isName_runName (by decide +kernel)
  have hother : IsName (runName 500000 "strict" none) := isName_runName (by decide +kernel)
  have hlocate : afterFirstRun.2.files.locate (jsonPath (afterFirstRun.1.directory.join
      (runName 0 "plain" none))) = .ok firstRecord := by
    decide +kernel
  have hwritten : (afterFirstRun.2.files.contents? firstRecord).isSome = true := by decide +kernel
  obtain ⟨b, hb⟩ := Option.isSome_iff_exists.1 hwritten
  refine ⟨hstarts, _, b, hb, ?_⟩
  rw [← hb]
  refine (records_kept hstarts).2 _ hname (fun other hmem => ?_) _ List.mem_cons_self _ hlocate
  rw [hnames] at hmem
  obtain rfl := List.mem_singleton.1 hmem
  exact ⟨hother, hne⟩

/-- **A record is lost**: a second run of the same mode, in the same second, has its files where the
first one had them. -/
theorem not_records_kept : Starts (shortRun 500000 "second.txt" "plain" false) ∧
    ∃ l b, afterFirstRun.2.files.contents? l = some b ∧
      (calls afterFirstRun
        (shortRun 500000 "second.txt" "plain" false)).2.files.contents? l ≠ some b := by
  have hread : (afterFirstRun.2.files.contents? firstRecord).any (fun b => decide ((calls
      afterFirstRun (shortRun 500000 "second.txt" "plain" false)).2.files.contents? firstRecord ≠
        some b)) = true := by
    decide +kernel
  obtain ⟨b, hb, hlost⟩ := (Option.any_eq_true _ _).1 hread
  exact ⟨rfl, _, b, hb, of_decide_eq_true hlost⟩

end RunLog

end Strips
