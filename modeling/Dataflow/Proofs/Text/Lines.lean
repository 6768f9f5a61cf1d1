import Dataflow.Text.Blank
import Mathlib.Data.List.TakeWhile

/-! # What trimming leaves, and the last line

Trimming leaves what begins and ends with something other than a blank and has only blanks around
it, which settles it. The last line that is not blank is one behind which there are only blanks.
-/

namespace Dataflow.Text

variable {cs kept line : List Char}

/-! ### Trimming -/

/-- Only blanks stand around what is kept of some characters, and no blank at its ends. -/
def Trims (cs kept : List Char) : Prop :=
  ∃ before after, cs = before ++ kept ++ after ∧ (∀ c ∈ before, isBlank c = true) ∧
    (∀ c ∈ after, isBlank c = true) ∧ (∀ c ∈ kept.head?, isBlank c = false) ∧
    ∀ c ∈ kept.getLast?, isBlank c = false

theorem dropWhile_blank_append {blanks : List Char} (hblanks : ∀ c ∈ blanks, isBlank c = true)
    (hkept : ∀ c ∈ kept.head?, isBlank c = false) :
    (blanks ++ kept).dropWhile isBlank = kept := by
  rw [List.dropWhile_append_of_pos hblanks]
  cases kept with
  | nil => rfl
  | cons c rest => exact List.dropWhile_cons_of_neg (by simp [hkept c rfl])

theorem not_blank_of_head?_dropWhile {c : Char} (h : c ∈ (cs.dropWhile isBlank).head?) :
    isBlank c = false := by
  have hnot := List.head?_dropWhile_not isBlank cs
  rw [Option.mem_def.mp h] at hnot
  exact hnot

theorem Trims.trimmed_eq (h : Trims cs kept) : trimmed cs = kept := by
  obtain ⟨before, after, rfl, hbefore, hafter, hhead, hlast⟩ := h
  cases kept with
  | nil =>
      have hall : ∀ c ∈ before ++ after, isBlank c = true :=
        List.forall_mem_append.mpr ⟨hbefore, hafter⟩
      have hdrop : (before ++ after ++ []).dropWhile isBlank = [] :=
        dropWhile_blank_append hall (by simp)
      rw [List.append_nil] at hdrop ⊢
      rw [trimmed, hdrop]
      rfl
  | cons c rest =>
      have hfront : (before ++ (c :: rest ++ after)).dropWhile isBlank = c :: rest ++ after :=
        dropWhile_blank_append hbefore (by simpa using hhead)
      have hback : (after.reverse ++ (c :: rest).reverse).dropWhile isBlank =
          (c :: rest).reverse :=
        dropWhile_blank_append (by simpa using hafter) (by rwa [List.head?_reverse])
      rw [trimmed, List.append_assoc, hfront, List.reverse_append, hback, List.reverse_reverse]

theorem trims_trimmed (cs : List Char) : Trims cs (trimmed cs) := by
  have hback := List.takeWhile_append_dropWhile (p := isBlank)
    (l := (cs.dropWhile isBlank).reverse)
  have hrest : cs.dropWhile isBlank = trimmed cs ++
      ((cs.dropWhile isBlank).reverse.takeWhile isBlank).reverse := by
    rw [trimmed, ← List.reverse_append, hback, List.reverse_reverse]
  refine ⟨cs.takeWhile isBlank, ((cs.dropWhile isBlank).reverse.takeWhile isBlank).reverse,
    ?_, fun c hc => List.mem_takeWhile_imp hc, fun c hc => ?_, fun c hc => ?_, fun c hc => ?_⟩
  · rw [List.append_assoc, ← hrest, List.takeWhile_append_dropWhile]
  · exact List.mem_takeWhile_imp (List.mem_reverse.mp hc)
  · have hhead : c ∈ (cs.dropWhile isBlank).head? := by
      rw [hrest, List.head?_append, Option.mem_def.mp hc]
      rfl
    exact not_blank_of_head?_dropWhile hhead
  · rw [trimmed, List.getLast?_reverse] at hc
    exact not_blank_of_head?_dropWhile hc

theorem trimmed_eq_iff : trimmed cs = kept ↔ Trims cs kept :=
  ⟨fun h => h ▸ trims_trimmed cs, Trims.trimmed_eq⟩

theorem trim_eq_iff {s t : String} : trim s = t ↔ Trims s.toList t.toList := by
  rw [← trimmed_eq_iff, trim, ← String.toList_inj, String.toList_ofList]

/-- Nothing is left of blanks only. -/
theorem trimmed_eq_nil_iff : trimmed cs = [] ↔ ∀ c ∈ cs, isBlank c = true := by
  rw [trimmed_eq_iff]
  constructor
  · rintro ⟨before, after, rfl, hbefore, hafter, -, -⟩
    rw [List.append_nil]
    exact List.forall_mem_append.mpr ⟨hbefore, hafter⟩
  · intro h
    exact ⟨cs, [], by simp, h, by simp, by simp, by simp⟩

/-! ### Pieces between separators -/

theorem pieces_of_not_mem {separator : Char} (h : separator ∉ cs) : pieces separator cs = [cs] := by
  induction cs with
  | nil => rfl
  | cons c cs ih =>
      rw [List.mem_cons, not_or] at h
      rw [pieces, if_neg (Ne.symm h.1), ih h.2]

theorem pieces_ne_nil (separator : Char) (cs : List Char) : pieces separator cs ≠ [] := by
  cases cs with
  | nil => simp [pieces]
  | cons c cs =>
      rw [pieces]
      split
      next => simp
      next => split <;> simp

/-- A separator sets the pieces before it apart from those behind it. -/
theorem pieces_append_cons (separator : Char) (before after : List Char) :
    pieces separator (before ++ separator :: after) =
      pieces separator before ++ pieces separator after := by
  induction before with
  | nil => simp [pieces]
  | cons c before ih =>
      rw [List.cons_append, pieces, pieces, ih]
      split
      next => rfl
      next =>
        cases hpieces : pieces separator before with
        | nil => exact absurd hpieces (pieces_ne_nil separator before)
        | cons piece more => rfl

/-- The characters of a piece stand in the list. -/
theorem mem_of_mem_pieces {separator c : Char} {piece : List Char}
    (hpiece : piece ∈ pieces separator cs) (hc : c ∈ piece) : c ∈ cs := by
  induction cs generalizing piece with
  | nil =>
      rw [pieces, List.mem_singleton] at hpiece
      rwa [hpiece] at hc
  | cons d cs ih =>
      rw [pieces] at hpiece
      split at hpiece
      next =>
        rcases List.mem_cons.mp hpiece with rfl | hpiece
        · cases hc
        · exact List.mem_cons_of_mem _ (ih hpiece hc)
      next =>
        split at hpiece
        next =>
          rw [List.mem_singleton.mp hpiece, List.mem_singleton] at hc
          exact List.mem_cons.mpr (.inl hc)
        next first more hpieces =>
          rw [hpieces] at ih
          rcases List.mem_cons.mp hpiece with rfl | hpiece
          · rcases List.mem_cons.mp hc with rfl | hc
            · exact List.mem_cons_self
            · exact List.mem_cons_of_mem _ (ih List.mem_cons_self hc)
          · exact List.mem_cons_of_mem _ (ih (List.mem_cons_of_mem _ hpiece) hc)

/-! ### The last line -/

/-- A line stands between line feeds, or between one and an end of the text. This one is not blank,
and nothing but blanks stands behind it. -/
def IsLastLine (cs line : List Char) : Prop :=
  ∃ before after, cs = before ++ line ++ after ∧ (before = [] ∨ ∃ init, before = init ++ ['\n']) ∧
    (after = [] ∨ ∃ rest, after = '\n' :: rest) ∧ '\n' ∉ line ∧ (∃ c ∈ line, isBlank c = false) ∧
    ∀ c ∈ after, isBlank c = true

/-- The line stands among the pieces, and the pieces behind it are blank. -/
theorem IsLastLine.exists_pieces_eq (h : IsLastLine cs line) : ∃ above below,
    pieces '\n' cs = above ++ line :: below ∧ ∀ piece ∈ below, trimmed piece = [] := by
  obtain ⟨before, after, rfl, hbefore, hafter, hline, -, hblank⟩ := h
  have hbelow : ∃ below, pieces '\n' (line ++ after) = line :: below ∧
      ∀ piece ∈ below, trimmed piece = [] := by
    rcases hafter with rfl | ⟨rest, rfl⟩
    · exact ⟨[], by rw [List.append_nil, pieces_of_not_mem hline], by simp⟩
    · refine ⟨pieces '\n' rest, by rw [pieces_append_cons, pieces_of_not_mem hline]; rfl, ?_⟩
      exact fun piece hpiece => trimmed_eq_nil_iff.mpr fun c hc =>
        hblank c (List.mem_cons_of_mem _ (mem_of_mem_pieces hpiece hc))
  obtain ⟨below, hpieces, htrimmed⟩ := hbelow
  rcases hbefore with rfl | ⟨init, rfl⟩
  · exact ⟨[], below, by simpa using hpieces, htrimmed⟩
  · refine ⟨pieces '\n' init, below, ?_, htrimmed⟩
    rw [← hpieces, ← pieces_append_cons]
    simp

/-- A text begins with a line. -/
theorem exists_firstLine (cs : List Char) : ∃ line after, cs = line ++ after ∧ '\n' ∉ line ∧
    (after = [] ∨ ∃ rest, after = '\n' :: rest) := by
  induction cs with
  | nil => exact ⟨[], [], rfl, by simp, .inl rfl⟩
  | cons c cs ih =>
      by_cases hc : c = '\n'
      · exact ⟨[], c :: cs, rfl, by simp, .inr ⟨cs, by rw [hc]⟩⟩
      · obtain ⟨line, after, rfl, hline, hafter⟩ := ih
        exact ⟨c :: line, after, rfl, by simp [hline, Ne.symm hc], hafter⟩

/-- Where not everything is blank there is a last line that is not. -/
theorem exists_isLastLine (h : ∃ c ∈ cs, isBlank c = false) : ∃ line, IsLastLine cs line := by
  induction cs with
  | nil => simp at h
  | cons c cs ih =>
      by_cases hrest : ∃ d ∈ cs, isBlank d = false
      · obtain ⟨line, before, after, rfl, hbefore, hafter, hline, hsome, hblank⟩ := ih hrest
        rcases hbefore with rfl | ⟨init, rfl⟩
        · by_cases hc : c = '\n'
          · subst hc
            exact ⟨line, ['\n'], after, by simp, .inr ⟨[], rfl⟩, hafter, hline, hsome, hblank⟩
          · obtain ⟨d, hd, hblankd⟩ := hsome
            exact ⟨c :: line, [], after, by simp, .inl rfl, hafter, by simp [hline, Ne.symm hc],
              ⟨d, List.mem_cons_of_mem _ hd, hblankd⟩, hblank⟩
        · exact ⟨line, c :: (init ++ ['\n']), after, by simp, .inr ⟨c :: init, rfl⟩, hafter, hline,
            hsome, hblank⟩
      · -- Only the first character is not blank, so its line is the one.
        have hblank : ∀ d ∈ cs, isBlank d = true := by simpa using hrest
        have hc : isBlank c = false := by
          obtain ⟨d, hd, hblankd⟩ := h
          rcases List.mem_cons.mp hd with rfl | hd
          · exact hblankd
          · exact absurd ⟨d, hd, hblankd⟩ hrest
        have hfeed : '\n' ≠ c := by
          rintro rfl
          exact absurd hc (by decide)
        obtain ⟨line, after, rfl, hline, hafter⟩ := exists_firstLine cs
        exact ⟨c :: line, [], after, rfl, .inl rfl, hafter, by simp [hline, hfeed],
          ⟨c, List.mem_cons_self, hc⟩, fun d hd => hblank d (List.mem_append_right _ hd)⟩

theorem IsLastLine.lastLine?_eq {s : String} (h : IsLastLine s.toList line) :
    lastLine? s = some (String.ofList (trimmed line)) := by
  obtain ⟨above, below, hpieces, hbelow⟩ := h.exists_pieces_eq
  obtain ⟨-, -, -, -, -, -, ⟨c, hc, hsome⟩, -⟩ := h
  have hline : trimmed line ≠ [] := fun hnil =>
    absurd (trimmed_eq_nil_iff.mp hnil c hc) (by simp [hsome])
  have hskip : (below.map trimmed).reverse.find? (· ≠ []) = none := by
    simpa [List.find?_eq_none] using hbelow
  rw [lastLine?, hpieces, List.map_append, List.map_cons, List.reverse_append, List.reverse_cons,
    List.find?_append, List.find?_append, hskip, List.find?_cons_of_pos (by simpa using hline)]
  rfl

/-- Without a line that is not blank there is nothing. -/
theorem lastLine?_eq_none_iff {s : String} :
    lastLine? s = none ↔ ∀ c ∈ s.toList, isBlank c = true := by
  constructor
  · intro hnone
    by_contra hsome
    obtain ⟨line, hline⟩ := exists_isLastLine (by simpa using hsome)
    rw [hline.lastLine?_eq] at hnone
    cases hnone
  · intro hblank
    have hpieces : ∀ piece ∈ pieces '\n' s.toList, trimmed piece = [] := fun piece hpiece =>
      trimmed_eq_nil_iff.mpr fun c hc => hblank c (mem_of_mem_pieces hpiece hc)
    simpa [lastLine?, List.find?_eq_none] using hpieces

/-- What is reported is the last line that is not blank, without the blanks around it. -/
theorem lastLine?_eq_some_iff {s t : String} : lastLine? s = some t ↔
    ∃ line, IsLastLine s.toList line ∧ Trims line t.toList := by
  have hlast {line : List Char} (hline : IsLastLine s.toList line) :
      lastLine? s = some t ↔ Trims line t.toList := by
    rw [hline.lastLine?_eq, Option.some.injEq, ← trimmed_eq_iff, ← String.toList_inj,
      String.toList_ofList]
  constructor
  · intro hsome
    have hblank : ¬ ∀ c ∈ s.toList, isBlank c = true := by
      rw [← lastLine?_eq_none_iff, hsome]
      nofun
    obtain ⟨line, hline⟩ := exists_isLastLine (by simpa using hblank)
    exact ⟨line, hline, (hlast hline).mp hsome⟩
  · rintro ⟨line, hline, htrims⟩
    exact (hlast hline).mpr htrims

end Dataflow.Text
