import ContractMigration.Proofs.Solidity.Masking

/-!
# Cutting a source at code

A character of a masked text that is neither blank nor a quote nor a slash stands there because it is code. No comment
and no string reaches over code, so a source can be cut in front of it and behind it, and each piece is masked on its
own as it is masked in the whole (`exists_cut`). In particular a piece between two such characters has the same masked
form wherever it stands.
-/

namespace ContractMigration.Solidity

namespace Lexeme

theorem not_mem_map_blankOut {c : Char} (hc : ShowsCode c) (text : List Char) : c ∉ text.map blankOut := by
  intro hmem
  obtain ⟨d, -, rfl⟩ := List.mem_map.1 hmem
  by_cases hline : d = '\n'
  · exact hc.2.2 (by simp [blankOut, hline])
  · exact hc.2.1 (blankOut_of_ne hline)

/-- A lexeme with code in its masked form is that code. -/
theorem read_of_mem_masked {c d : Char} {rest : List Char} (hc : ShowsCode c) (h : c ∈ (read d rest).1.masked) :
    d = c ∧ read d rest = (code c, rest) := by
  by_cases hquote : d = '"' ∨ d = '\''
  · rw [read_literal hquote] at h
    have hquotes : c = d := by
      simp only [masked, List.cons_append, List.mem_cons, List.mem_append, not_mem_map_blankOut hc, false_or] at h
      rcases h with heq | hclose
      · exact heq
      · exact List.mem_singleton.1 (List.mem_ite_nil_right.1 hclose).2
    rcases hquote with rfl | rfl
    · exact absurd hquotes hc.1.2.1
    · exact absurd hquotes hc.1.2.2
  · have hcode : read d rest = (code d, rest) ∨ ∃ text after, read d rest = (comment text, after) := by
      unfold read
      split
      · exact .inr ⟨_, _, rfl⟩
      · exact .inr ⟨_, _, rfl⟩
      · rw [if_neg (by simpa using hquote)]
        exact .inl rfl
    rcases hcode with hread | ⟨text, after, hread⟩
    · rw [hread] at h ⊢
      obtain rfl := List.mem_singleton.1 h
      exact ⟨rfl, rfl⟩
    · rw [hread] at h
      exact absurd h (not_mem_map_blankOut hc text)

theorem read_suffix (c : Char) (rest : List Char) : (read c rest).2 <:+ rest := by
  have hsource := source_read_append c rest
  cases hlead : (read c rest).1.source with
  | nil =>
    have hlong := length_read_le c rest
    rw [hlead, List.nil_append] at hsource
    rw [hsource, List.length_cons] at hlong
    exact absurd hlong (by omega)
  | cons d lead =>
    rw [hlead, List.cons_append] at hsource
    exact ⟨lead, (List.cons.inj hsource).2⟩

/-- A lexeme in front of code is the same without the code and what follows it. -/
theorem read_before_code {c d : Char} (hc : IsPlain c) (hline : c ≠ '\n') {before after left : List Char}
    {lexeme : Lexeme} (hread : read d (before ++ c :: after) = (lexeme, left ++ c :: after)) :
    read d before = (lexeme, left) := by
  have hsource := source_read_append d (before ++ c :: after)
  rw [hread] at hsource
  simp only at hsource
  have hlength : lexeme.masked.length + left.length = before.length + 1 := by
    rw [length_masked]
    have := congrArg List.length hsource
    simp only [List.length_append, List.length_cons] at this
    omega
  rcases settled_or_open d before with hsettled | ⟨hend, -, hnext⟩ | ⟨rfl, rfl⟩
  · rw [hsettled, Prod.mk.injEq] at hread
    exact Prod.ext hread.1 (List.append_cancel_right hread.2)
  · -- an open lexeme would have swallowed the code
    have hlong := (hnext c after hc.2.1 hc.2.2 hline).length_le
    have hwhole := congrArg List.length (source_read_append d before)
    rw [hread, List.length_append, List.length_singleton, length_masked] at hlong
    rw [hend, List.append_nil, List.length_cons] at hwhole
    simp only at hlong
    omega
  · rw [List.nil_append] at hread
    by_cases hblock : c = '*'
    · subst hblock
      rw [read_blockComment, Prod.mk.injEq] at hread
      rw [← hread.1] at hlength
      simp only [masked, List.length_map, List.length_cons, List.length_nil] at hlength
      omega
    · rw [read_slash_code hc.1 hblock, Prod.mk.injEq] at hread
      have hafter : left ++ c :: after = [] ++ c :: after := hread.2.symm
      have hleft : left = [] := List.append_cancel_right hafter
      rw [hleft, ← hread.1]
      rfl

end Lexeme

/-- A source is cut at a character of code: what stands in front of it and what stands behind it are masked as they
are masked in the whole. -/
theorem exists_cut {text front rest : List Char} {c : Char} (hc : ShowsCode c) (h : mask text = front ++ c :: rest) :
    ∃ before after, text = before ++ c :: after ∧ mask before = front ∧ mask after = rest := by
  match text with
  | [] => exact absurd h (by simp)
  | d :: text =>
    have hbehind : ∀ middle, front = (Lexeme.read d text).1.masked ++ middle →
        mask (Lexeme.read d text).2 = middle ++ c :: rest →
        ∃ before after, d :: text = before ++ c :: after ∧ mask before = front ∧ mask after = rest := by
      intro middle hfront htail
      have hread := Lexeme.length_read_le d text
      obtain ⟨left, after, hleft, hmiddle, hrest⟩ := exists_cut hc htail
      obtain ⟨before, rfl⟩ : ∃ before, text = before ++ c :: after := by
        obtain ⟨before, hbefore⟩ := Lexeme.read_suffix d text
        exact ⟨before ++ left, by rw [← hbefore, hleft, List.append_assoc]⟩
      have hbefore : Lexeme.read d before = ((Lexeme.read d (before ++ c :: after)).1, left) :=
        Lexeme.read_before_code hc.1 hc.2.2 (Prod.ext rfl hleft)
      refine ⟨d :: before, after, rfl, ?_, hrest⟩
      rw [mask_cons, hbefore, hmiddle, hfront]
    rw [mask_cons] at h
    rcases List.append_eq_append_iff.1 h with ⟨middle, hfront, htail⟩ | ⟨middle, hmasked, hrest⟩
    · exact hbehind middle hfront htail
    · cases middle with
      | nil => exact hbehind [] (by simpa using hmasked.symm) (by simpa using hrest.symm)
      | cons e middle =>
        obtain ⟨rfl, -⟩ := List.cons.inj hrest
        have hmem : c ∈ (Lexeme.read d text).1.masked := by
          rw [hmasked]
          exact List.mem_append_right _ List.mem_cons_self
        obtain ⟨rfl, hread⟩ := Lexeme.read_of_mem_masked hc hmem
        rw [hread] at hmasked h
        have hfront : front = [] := by
          have := congrArg List.length hmasked
          simp only [Lexeme.masked, List.length_append, List.length_cons, List.length_nil] at this
          exact List.length_eq_zero_iff.1 (by omega)
        rw [hfront] at h
        exact ⟨[], text, rfl, hfront.symm, (List.cons.inj h).2⟩
termination_by text.length

/-- What stands in front of a character of code and what stands behind it are masked on their own. -/
theorem mask_cut {before after front rest : List Char} {c : Char} (hc : ShowsCode c)
    (hlength : front.length = before.length) (h : mask (before ++ c :: after) = front ++ c :: rest) :
    mask before = front ∧ mask after = rest := by
  obtain ⟨before', after', htext, rfl, rfl⟩ := exists_cut hc h
  rw [length_mask] at hlength
  obtain ⟨rfl, hafter⟩ := List.append_inj htext hlength.symm
  exact ⟨rfl, by rw [(List.cons.inj hafter).2]⟩

end ContractMigration.Solidity
