import Parley.Text.Blank
/-!
# Trimming

What is left of a trimmed text begins and ends with a character that is not blank, and all else was
blank (`Text.trim_padded`, `Text.exists_padded`).
-/
namespace Parley.Text
variable {before cs after : List Char}

/-- All of the characters are blank. -/
def Blank (cs : List Char) : Prop := ∀ c ∈ cs, isBlank c = true

/-- Neither the first nor the last character is blank. -/
structure Trimmed (cs : List Char) : Prop where
  first : ∀ c rest, cs = c :: rest → isBlank c = false
  last : ∀ front c, cs = front ++ [c] → isBlank c = false

theorem blank_nil : Blank [] := fun _ member => absurd member List.not_mem_nil

theorem Blank.append (first : Blank before) (second : Blank after) : Blank (before ++ after) :=
  fun c member => (List.mem_append.mp member).elim (first c) (second c)

theorem Blank.reverse (blank : Blank cs) : Blank cs.reverse :=
  fun c member => blank c (List.mem_reverse.mp member)

theorem trimmed_nil : Trimmed [] := ⟨by simp, by simp⟩

theorem Trimmed.reverse (trimmed : Trimmed cs) : Trimmed cs.reverse where
  first c rest here := by
    refine trimmed.last rest.reverse c ?_
    rw [← List.reverse_reverse cs, here, List.reverse_cons]
  last front c here := by
    refine trimmed.first c front.reverse ?_
    rw [← List.reverse_reverse cs, here, List.reverse_append, List.reverse_singleton,
      List.singleton_append]

/-- No more of a text that starts with blank characters is blank than what stands in front of a
trimmed text in it. -/
theorem Trimmed.length_front_le {blank rest : List Char} (trimmed : Trimmed cs) (nonempty : cs ≠ [])
    (allBlank : Blank blank) (whole : blank ++ rest = before ++ (cs ++ after)) :
    blank.length ≤ before.length := by
  obtain ⟨c, tail, rfl⟩ := List.exists_cons_of_ne_nil nonempty
  rcases List.append_eq_append_iff.mp whole with ⟨more, rfl, -⟩ | ⟨more, rfl, inside⟩
  · simp
  · cases more with
    | nil => simp
    | cons d ds =>
      obtain ⟨rfl, -⟩ := List.cons.inj inside
      have visible := trimmed.first _ tail rfl
      rw [allBlank _ (List.mem_append_right _ (List.mem_cons_self ..))] at visible
      contradiction

/-- The same of a text that ends with blank characters. -/
theorem Trimmed.length_back_le {blank rest : List Char} (trimmed : Trimmed cs) (nonempty : cs ≠ [])
    (allBlank : Blank blank) (whole : rest ++ blank = before ++ cs ++ after) :
    blank.length ≤ after.length := by
  have turned := congrArg List.reverse whole
  simp only [List.reverse_append] at turned
  have shorter := trimmed.reverse.length_front_le (by simpa using nonempty) allBlank.reverse turned
  simpa using shorter

theorem trimLeft_blank_append (blank : Blank before) : trimLeft (before ++ cs) = trimLeft cs :=
  List.dropWhile_append_of_pos blank

theorem trimLeft_of_blank (blank : Blank cs) : trimLeft cs = [] := by
  rw [← List.append_nil cs, trimLeft_blank_append blank]
  rfl

theorem trimRight_append_blank (blank : Blank after) : trimRight (cs ++ after) = trimRight cs := by
  rw [trimRight, List.reverse_append, List.dropWhile_append_of_pos blank.reverse, trimRight]

theorem trimRight_concat {c : Char} (visible : isBlank c = false) :
    trimRight (cs ++ [c]) = cs ++ [c] := by
  simp [trimRight, visible]

theorem trimRight_of_trimmed (trimmed : Trimmed cs) : trimRight cs = cs := by
  rcases List.eq_nil_or_concat cs with rfl | ⟨front, c, rfl⟩
  · rfl
  · rw [List.concat_eq_append]
    exact trimRight_concat (trimmed.last front c List.concat_eq_append)

/-- Of a trimmed text with blank characters around it the text is left. -/
theorem trim_padded (blankBefore : Blank before) (trimmed : Trimmed cs) (blankAfter : Blank after) :
    trim (before ++ cs ++ after) = cs := by
  rw [trim, List.append_assoc, trimLeft_blank_append blankBefore]
  cases cs with
  | nil => rw [List.nil_append, trimLeft_of_blank blankAfter]; rfl
  | cons c rest =>
    have visible := trimmed.first c rest rfl
    rw [List.cons_append, trimLeft_of_not_blank visible, ← List.cons_append,
      trimRight_append_blank blankAfter, trimRight_of_trimmed trimmed]

private theorem exists_blank_front (cs : List Char) :
    ∃ before, Blank before ∧ cs = before ++ trimLeft cs ∧
      ∀ c rest, trimLeft cs = c :: rest → isBlank c = false := by
  induction cs with
  | nil => exact ⟨[], blank_nil, rfl, by simp [trimLeft]⟩
  | cons c cs ih =>
    by_cases blank : isBlank c = true
    · obtain ⟨before, allBlank, whole, first⟩ := ih
      have same : trimLeft (c :: cs) = trimLeft cs := by simp [trimLeft, blank]
      refine ⟨c :: before, List.forall_mem_cons.mpr ⟨blank, allBlank⟩, ?_, same ▸ first⟩
      rw [same, List.cons_append, ← whole]
    · have visible : isBlank c = false := Bool.eq_false_iff.mpr blank
      rw [trimLeft_of_not_blank visible]
      exact ⟨[], blank_nil, rfl, by rintro d rest ⟨⟩; exact visible⟩

/-- A text is its trimmed text with blank characters around it. -/
theorem exists_padded (cs : List Char) :
    ∃ before after, Blank before ∧ Blank after ∧ Trimmed (trim cs) ∧
      cs = before ++ trim cs ++ after := by
  obtain ⟨before, blankBefore, whole, first⟩ := exists_blank_front cs
  obtain ⟨behind, blankBehind, rest, last⟩ := exists_blank_front (trimLeft cs).reverse
  have back : trimLeft cs = trim cs ++ behind.reverse := by
    have turned := congrArg List.reverse rest
    rwa [List.reverse_reverse, List.reverse_append] at turned
  refine ⟨before, behind.reverse, blankBefore, blankBehind.reverse, ⟨?_, ?_⟩, ?_⟩
  · intro c rest here
    exact first c (rest ++ behind.reverse) (by rw [back, here, List.cons_append])
  · intro front c here
    refine last c front.reverse ?_
    have turned := congrArg List.reverse (show trim cs = front ++ [c] from here)
    simpa [trim, trimRight, trimLeft] using turned
  · rw [List.append_assoc, ← back]
    exact whole

/-- Nothing is left of a text exactly when it is blank. -/
theorem trim_eq_nil : trim cs = [] ↔ Blank cs := by
  constructor
  · intro nothing
    obtain ⟨before, after, blankBefore, blankAfter, -, whole⟩ := exists_padded cs
    rw [whole, nothing, List.append_nil]
    exact blankBefore.append blankAfter
  · intro blank
    have padded := trim_padded blank trimmed_nil blank_nil
    rwa [List.append_nil, List.append_nil] at padded

end Parley.Text
