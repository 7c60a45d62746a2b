import ContractMigration.Proofs.Text.Search
import ContractMigration.Text.Case

/-!
# Lower case of a longer text

Lower-casing looks at neighbours only to choose between the two small sigmas. Once these are taken for one character
it works character by character, so an ASCII piece that occurs in the lower-case form of a text still occurs there
when the text goes on.
-/

namespace ContractMigration.Text

/-- The small sigma for its final form, and every other character for itself. -/
def unifySigma (c : Char) : Char :=
  if c = Char.ofNat 0x3C2 then Char.ofNat 0x3C3 else c

/-- The lower-case image of a character with the two small sigmas taken for one. -/
def lowerUnified (c : Char) : List Char :=
  if c.toNat = 0x3A3 then [Char.ofNat 0x3C3] else (lowerChar c).map unifySigma

theorem map_unifySigma_lowerOnto (done : List Char) (afterCased : Bool) (text : List Char) :
    (lowerOnto done afterCased text).map unifySigma = done.reverse.map unifySigma ++ text.flatMap lowerUnified := by
  induction text generalizing done afterCased with
  | nil => simp [lowerOnto]
  | cons c rest ih =>
    rw [lowerOnto, ih, List.flatMap_cons, List.reverseAux_eq, List.reverse_append, List.reverse_reverse,
      List.map_append, List.append_assoc]
    congr 2
    unfold lowerUnified
    by_cases hsigma : c.toNat = 0x3A3
    · rw [if_pos hsigma, if_pos hsigma]
      split <;> decide
    · rw [if_neg hsigma, if_neg hsigma]

theorem map_unifySigma_lower (text : List Char) : (lower text).map unifySigma = text.flatMap lowerUnified :=
  map_unifySigma_lowerOnto [] false text

theorem unifySigma_eq_self {c : Char} (h : (unifySigma c).toNat < 128) : unifySigma c = c := by
  unfold unifySigma at h ⊢
  split at h
  · exact absurd h (by decide)
  · next hne => rw [if_neg hne]

theorem unifySigma_of_ascii {c : Char} (h : c.toNat < 128) : unifySigma c = c := by
  have hne : c ≠ Char.ofNat 0x3C2 := by
    rintro rfl
    exact absurd h (by decide)
  rw [unifySigma, if_neg hne]

theorem occursIn_lower_append {piece : List Char} (hascii : piece.all (·.toNat < 128) = true) {text : List Char}
    (h : occursIn piece (lower text) = true) (more : List Char) : occursIn piece (lower (text ++ more)) = true := by
  simp only [List.all_eq_true, decide_eq_true_eq] at hascii
  rw [occursIn_iff] at h ⊢
  have hmap : piece.map unifySigma <:+: (lower (text ++ more)).map unifySigma := by
    rw [map_unifySigma_lower, List.flatMap_append, ← map_unifySigma_lower]
    exact (h.map unifySigma).trans (List.prefix_append _ _).isInfix
  obtain ⟨before, after, heq⟩ := hmap
  obtain ⟨front, back, hlower, hfront, -⟩ := List.map_eq_append_iff.1 heq.symm
  obtain ⟨left, middle, rfl, -, hmiddle⟩ := List.map_eq_append_iff.1 hfront
  have hpiece : piece.map unifySigma = piece := by
    calc piece.map unifySigma = piece.map id :=
          List.map_congr_left fun c hc => unifySigma_of_ascii (hascii c hc)
      _ = piece := List.map_id piece
  have hself : middle.map unifySigma = middle := by
    calc middle.map unifySigma = middle.map id := by
          refine List.map_congr_left fun c hc => unifySigma_eq_self (hascii _ ?_)
          rw [← hpiece, ← hmiddle]
          exact List.mem_map_of_mem hc
      _ = middle := List.map_id middle
  rw [hself, hpiece] at hmiddle
  rw [hmiddle] at hlower
  exact ⟨left, back, hlower.symm⟩

end ContractMigration.Text
