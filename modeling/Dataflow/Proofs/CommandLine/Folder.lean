import Dataflow.CommandLine.Folder
import Dataflow.Proofs.CommandLine.Host

/-! # Reading what was written

A file that is written at a path is read back at that path. Writing sets one text and leaves every
directory where it is, so every path that led somewhere still leads there. The host of a folder
answers from the folder, and only writing changes it.
-/

namespace Dataflow.CommandLine

/-- What a place holds once a text is put at some place. -/
def Spot.after (place : Place) (text : String) : Spot → Spot
  | .directory other => .directory other
  | .file other old => if other = place then .file place text else .file other old
  | .vacant other => if other = place then .file place text else .vacant other

namespace Folder

variable {f f' : Folder} {place other : Place} {text : String}

theorem fileText?_put : (f.put place text).fileText? other =
    if other = place then some text else f.fileText? other := by
  by_cases hplace : other = place
  · subst hplace
    simp [fileText?, put]
  · have hkept : (f.files.filter (·.1 ≠ place)).find? (·.1 = other) =
        f.files.find? (·.1 = other) := by
      rw [List.find?_filter]
      congr 1
      funext entry
      by_cases hentry : entry.1 = other
      · simp [hentry, hplace]
      · simp [hentry]
    rw [if_neg hplace, fileText?, fileText?, put, List.find?_cons_of_neg (by simp [Ne.symm hplace]),
      hkept]

theorem spot_put : (f.put place text).spot other = (f.spot other).after place text := by
  have hdirectory : (f.put place text).isDirectory other = f.isDirectory other := rfl
  rw [spot, spot, hdirectory, fileText?_put]
  split
  next => rfl
  next =>
    by_cases hplace : other = place
    · subst hplace
      cases f.fileText? other <;> simp [Spot.after]
    · cases f.fileText? other <;> simp [Spot.after, hplace]

theorem step_put {s s' : Spot} {name : String} (h : f.step s name = .ok s') :
    (f.put place text).step (s.after place text) name = .ok (s'.after place text) := by
  cases s with
  | file other old => cases h
  | vacant other => cases h
  | directory other =>
      simp only [Spot.after, step, spot_put] at h ⊢
      split at h
      next hhere =>
        cases h
        rw [if_pos hhere]
      next hhere =>
        rw [if_neg hhere]
        split at h
        next hup =>
          cases h
          rw [if_pos hup]
        next hup =>
          rw [if_neg hup]
          split at h
          next => cases h
          next hlong =>
            cases h
            rw [if_neg hlong]

/-- A path that leads somewhere leads there still. -/
theorem foldlM_step_put {names : List String} {s s' : Spot} (h : names.foldlM f.step s = .ok s') :
    names.foldlM (f.put place text).step (s.after place text) = .ok (s'.after place text) := by
  induction names generalizing s with
  | nil =>
      cases h
      rfl
  | cons name names ih =>
      rw [List.foldlM_cons] at h ⊢
      obtain ⟨middle, hstep, hrest⟩ := bind_eq_ok_iff.mp h
      exact bind_eq_ok_iff.mpr ⟨_, step_put hstep, ih hrest⟩

theorem resolve_put {path : FilePath} {s : Spot} (h : f.resolve path = .ok s) :
    (f.put place text).resolve path = .ok (s.after place text) := by
  obtain ⟨_, hlength, hsteps⟩ := bind_eq_ok_iff.mp h
  exact bind_eq_ok_iff.mpr ⟨_, hlength, foldlM_step_put hsteps⟩

theorem exists_put_of_write {path : FilePath} (h : f.write path text = .ok f') :
    ∃ place s, f' = f.put place text ∧ f.resolve path = .ok s ∧
      s.after place text = .file place text := by
  unfold write at h
  obtain ⟨_, -, h⟩ := bind_eq_ok_iff.mp h
  split at h
  next =>
    -- Whatever the names before a last slash lead to, nothing is written.
    obtain ⟨s, -, h⟩ := bind_eq_ok_iff.mp h
    cases s <;> cases h
  next =>
    obtain ⟨s, hresolve, h⟩ := bind_eq_ok_iff.mp h
    cases s with
    | directory other => cases h
    | file place old =>
        cases h
        exact ⟨place, _, rfl, hresolve, if_pos rfl⟩
    | vacant place =>
        cases h
        exact ⟨place, _, rfl, hresolve, if_pos rfl⟩

/-- What is written at a path is read there. -/
theorem read_of_write {path : FilePath} (h : f.write path text = .ok f') :
    f'.read path = .ok text := by
  obtain ⟨place, s, rfl, hresolve, hafter⟩ := exists_put_of_write h
  rw [read, resolve_put hresolve, hafter]

/-! ### The host of a folder -/

section

variable {interpret : Invocation → Outcome} {runId : String} {path : FilePath}

theorem present_run : ((host interpret runId).present path).run f = (f.present path, f) :=
  rfl

theorem read_run : ((host interpret runId).read path).run f =
    ((f.read path).mapError PathError.message, f) :=
  rfl

theorem write_run : ((host interpret runId).write path text).run f =
    match f.write path text with
    | .ok f' => (.ok (), f')
    | .error e => (.error e.message, f) := by
  cases hwrite : f.write path text with
  | ok f' =>
      simp only [host, StateT.run_bind, StateT.run_get, pure_bind, hwrite]
      rfl
  | error e =>
      simp only [host, StateT.run_bind, StateT.run_get, pure_bind, hwrite]
      rfl

theorem write_run_eq_ok_iff :
    ((host interpret runId).write path text).run f = (.ok (), f') ↔ f.write path text = .ok f' := by
  rw [write_run]
  cases f.write path text <;> simp [result_eq_iff]

theorem reliable_host : (host interpret runId).Reliable where
  present_keeps _ _ := rfl
  read_keeps _ _ := rfl
  write_failed path text f f' reason h := by
    rw [write_run] at h
    cases hwrite : f.write path text with
    | ok written =>
        rw [hwrite] at h
        cases h
    | error e =>
        rw [hwrite] at h
        exact (congrArg Prod.snd h).symm
  write_done path text f f' h := by
    have hread := read_of_write (write_run_eq_ok_iff.mp h)
    rw [Host.contents, read_run, hread]
    rfl

end

end Folder

end Dataflow.CommandLine
