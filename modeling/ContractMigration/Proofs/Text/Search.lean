import ContractMigration.Text.Search
import Mathlib.Data.List.Infix

/-!
# What a search depends on

A piece occurs in a text exactly when the text holds it as an infix. A reader that looks for a word and the search
that tries it at every word are both local: what they find does not change when the text goes on behind what they
have looked at. How far they look is said by the text that a reader leaves over.
-/

namespace ContractMigration.Text

theorem takeWhile_stop {p : Char → Bool} {word : List Char} (h : ∀ c ∈ word, p c = true) {d : Char} (hd : p d = false)
    (rest : List Char) : (word ++ d :: rest).takeWhile p = word := by
  rw [List.takeWhile_append_of_pos h, List.takeWhile_cons_of_neg (by simp [hd]), List.append_nil]

theorem dropWhile_stop {p : Char → Bool} {word : List Char} (h : ∀ c ∈ word, p c = true) {d : Char} (hd : p d = false)
    (rest : List Char) : (word ++ d :: rest).dropWhile p = d :: rest := by
  rw [List.dropWhile_append_of_pos h, List.dropWhile_cons_of_neg (by simp [hd])]

theorem takeWhile_append_of_head {p : Char → Bool} {word rest : List Char} (hword : ∀ c ∈ word, p c = true)
    (hrest : ∀ c ∈ rest.head?, p c = false) : (word ++ rest).takeWhile p = word := by
  cases rest with
  | nil => rw [List.takeWhile_append_of_pos hword, List.takeWhile_nil, List.append_nil]
  | cons c rest => exact takeWhile_stop hword (hrest c rfl) rest

theorem drop_length_takeWhile (p : Char → Bool) (text : List Char) :
    text.drop (text.takeWhile p).length = text.dropWhile p := by
  induction text with
  | nil => rfl
  | cons c text ih =>
    by_cases hc : p c = true
    · rw [List.takeWhile_cons_of_pos hc, List.dropWhile_cons_of_pos hc, List.length_cons, List.drop_succ_cons, ih]
    · rw [List.takeWhile_cons_of_neg hc, List.dropWhile_cons_of_neg hc, List.length_nil, List.drop_zero]

theorem takeWhile_append_stop {p : Char → Bool} {d : Char} (hd : p d = false) (text rest : List Char) :
    (text ++ d :: rest).takeWhile p = text.takeWhile p := by
  induction text with
  | nil => exact List.takeWhile_cons_of_neg (by simp [hd])
  | cons c text ih => simp only [List.cons_append, List.takeWhile_cons, ih]

theorem dropWhile_append_stop {p : Char → Bool} {d : Char} (hd : p d = false) (text rest : List Char) :
    (text ++ d :: rest).dropWhile p = text.dropWhile p ++ d :: rest := by
  induction text with
  | nil => exact List.dropWhile_cons_of_neg (by simp [hd])
  | cons c text ih =>
    simp only [List.cons_append, List.dropWhile_cons, ih]
    split <;> rfl

theorem drop_takeWhile_append {p : Char → Bool} {d : Char} (hd : p d = false) (text rest : List Char) :
    (text ++ d :: rest).drop (text.takeWhile p).length = text.dropWhile p ++ d :: rest := by
  rw [← takeWhile_append_stop hd text rest, drop_length_takeWhile, dropWhile_append_stop hd]

theorem all_or_first (p : Char → Bool) (text : List Char) :
    (∀ c ∈ text, p c = true) ∨
    ∃ word d rest, text = word ++ d :: rest ∧ (∀ c ∈ word, p c = true) ∧ p d = false := by
  induction text with
  | nil => exact .inl fun c hc => absurd hc (by simp)
  | cons c text ih =>
    by_cases hc : p c = true
    · rcases ih with hall | ⟨word, d, rest, rfl, hword, hd⟩
      · exact .inl (List.forall_mem_cons.2 ⟨hc, hall⟩)
      · exact .inr ⟨c :: word, d, rest, rfl, List.forall_mem_cons.2 ⟨hc, hword⟩, hd⟩
    · exact .inr ⟨[], c, text, rfl, fun d hd => absurd hd (by simp), by simpa using hc⟩

theorem occursIn_iff {piece text : List Char} : occursIn piece text = true ↔ piece <:+: text := by
  induction text with
  | nil =>
    cases piece with
    | nil => simp [occursIn]
    | cons => simp [occursIn]
  | cons c rest ih => rw [occursIn, Bool.or_eq_true, List.isPrefixOf_iff_prefix, ih, List.infix_cons_iff]

/-- A separator that is foreign to a piece separates the places where the piece may occur. -/
theorem occursIn_append_cons {piece : List Char} {d : Char} (hne : piece ≠ []) (hd : d ∉ piece)
    (left right : List Char) :
    occursIn piece (left ++ d :: right) = (occursIn piece left || occursIn piece right) := by
  have hfront : ∀ text : List Char, piece.isPrefixOf (text ++ d :: right) = piece.isPrefixOf text := by
    intro text
    rw [Bool.eq_iff_iff, List.isPrefixOf_iff_prefix, List.isPrefixOf_iff_prefix]
    refine ⟨fun h => ?_, fun h => h.trans (List.prefix_append _ _)⟩
    rcases List.prefix_or_prefix_of_prefix h (List.prefix_append text _) with htext | ⟨behind, rfl⟩
    · exact htext
    · cases behind with
      | nil => simp
      | cons c behind =>
        obtain ⟨rfl, -⟩ := List.cons_prefix_cons.1 ((List.prefix_append_right_inj text).1 h)
        exact absurd (by simp) hd
  induction left with
  | nil =>
    have hnil := hfront []
    rw [List.nil_append] at hnil
    simp only [List.nil_append, occursIn, hnil]
    cases piece with
    | nil => exact absurd rfl hne
    | cons => rfl
  | cons c left ih =>
    have hcons := hfront (c :: left)
    rw [List.cons_append] at hcons
    rw [List.cons_append, occursIn, hcons, ih, occursIn, Bool.or_assoc]

theorem after?_eq_some_iff {piece text rest : List Char} : after? piece text = some rest ↔ text = piece ++ rest :=
  List.isPrefixOf?_eq_some_iff_append_eq.trans eq_comm

@[simp] theorem after?_append_self (piece rest : List Char) : after? piece (piece ++ rest) = some rest :=
  after?_eq_some_iff.2 rfl

/-- Whether a text begins with a piece is settled by a text that is as long as the piece, and by one that holds a
character foreign to the piece. -/
theorem after?_append {piece text : List Char} (h : piece.length ≤ text.length ∨ ∃ c ∈ text, c ∉ piece)
    (more : List Char) : after? piece (text ++ more) = (after? piece text).map (· ++ more) := by
  cases hlonger : after? piece (text ++ more) with
  | none =>
    cases hafter : after? piece text with
    | none => rfl
    | some rest =>
      rw [after?_eq_some_iff.1 hafter, List.append_assoc, after?_append_self] at hlonger
      exact absurd hlonger (by simp)
  | some found =>
    rcases List.append_eq_append_iff.1 (after?_eq_some_iff.1 hlonger) with ⟨middle, rfl, rfl⟩ | ⟨middle, rfl, rfl⟩
    · -- the text is too short to go on, and all of it belongs to the piece
      have hmiddle : middle = [] := by
        rcases h with hlength | ⟨c, hc, hforeign⟩
        · rw [List.length_append] at hlength
          exact List.length_eq_zero_iff.1 (by omega)
        · exact absurd (List.mem_append_left middle hc) hforeign
      subst hmiddle
      have hself : after? (text ++ []) text = some [] := after?_eq_some_iff.2 (by simp)
      rw [hself]
      rfl
    · rw [after?_append_self]
      rfl

/-- A character that is foreign to a word ends the text as far as the word is concerned. -/
theorem after?_append_cons {word : List Char} {d : Char} (hd : d ∉ word) (text rest : List Char) :
    after? word (text ++ d :: rest) = (after? word text).map (· ++ d :: rest) := by
  cases hfound : after? word text with
  | some found => rw [after?_eq_some_iff.1 hfound, List.append_assoc, after?_append_self, Option.map_some]
  | none =>
    rw [Option.map_none, ← Option.not_isSome_iff_eq_none, Option.isSome_iff_exists]
    rintro ⟨found, hlonger⟩
    rcases List.append_eq_append_iff.1 (after?_eq_some_iff.1 hlonger) with ⟨middle, rfl, hrest⟩ | ⟨middle, rfl, -⟩
    · cases middle with
      | nil =>
        have hself : after? (text ++ []) text = some [] := after?_eq_some_iff.2 (by simp)
        exact absurd (hself.symm.trans hfound) (by simp)
      | cons c middle =>
        obtain ⟨rfl, -⟩ := List.cons.inj hrest
        exact hd (by simp)
    · rw [after?_append_self] at hfound
      exact absurd hfound (by simp)

/-- A keyword that begins a text begins its first run. -/
theorem after?_run {p : Char → Bool} {keyword run rest found : List Char} (hkeyword : ∀ c ∈ keyword, p c = true)
    (hrest : ∀ c ∈ rest.head?, p c = false) (h : after? keyword (run ++ rest) = some found) :
    ∃ more, run = keyword ++ more ∧ found = more ++ rest := by
  rcases List.append_eq_append_iff.1 (after?_eq_some_iff.1 h) with ⟨middle, hk, htail⟩ | ⟨middle, hrun, hfound⟩
  · cases middle with
    | nil => exact ⟨[], by simpa using hk.symm, by simpa using htail.symm⟩
    | cons c middle =>
      exact absurd (hkeyword c (by simp [hk])) (by simp [hrest c (by simp [htail])])
  · exact ⟨middle, hrun, hfound⟩

theorem wholeWord?_suffix {word text rest : List Char} (h : wholeWord? word text = some rest) :
    text = word ++ rest := by
  unfold wholeWord? at h
  split at h
  · next found hfound =>
    split at h
    · exact absurd h (by simp)
    · rw [after?_eq_some_iff.1 hfound, Option.some.inj h]
  · exact absurd h (by simp)

/-- Whether a text begins with a whole word is settled by a text that goes on behind the word, and by one that holds
a character foreign to the word. -/
theorem wholeWord?_append {word text : List Char} (h : word.length < text.length ∨ ∃ c ∈ text, c ∉ word)
    (more : List Char) : wholeWord? word (text ++ more) = (wholeWord? word text).map (· ++ more) := by
  have hafter := after?_append (h.imp_left Nat.le_of_lt) more
  unfold wholeWord?
  rw [hafter]
  cases hrest : after? word text with
  | none => rfl
  | some rest =>
    have htext := after?_eq_some_iff.1 hrest
    -- the word is not the whole text, so the character that decides is part of it
    have hne : rest ≠ [] := by
      rintro rfl
      rw [List.append_nil] at htext
      subst htext
      rcases h with h | ⟨c, hc, hfree⟩
      · exact absurd h (Nat.lt_irrefl _)
      · exact hfree hc
    obtain ⟨d, rest, rfl⟩ := List.exists_cons_of_ne_nil hne
    by_cases hd : isWordChar d = true
    · simp [hd]
    · simp [hd]

theorem wholeWord?_append_cons (word : List Char) {d : Char} (hd : isWordChar d = false) (rest : List Char) :
    wholeWord? word (word ++ d :: rest) = some (d :: rest) := by
  rw [wholeWord?, after?_append_self]
  simp [hd]

@[simp] theorem findWordFrom_nil {α : Type} (joins : Char → Bool) (read : List Char → Option α) (behind : List Char)
    (joined : Bool) : findWordFrom joins read behind joined [] = none := rfl

theorem findWordFrom_step {α : Type} (joins : Char → Bool) (read : List Char → Option α) (behind : List Char)
    (joined : Bool) (c : Char) (rest : List Char) :
    findWordFrom joins read behind joined (c :: rest) =
      match if joined then none else read (c :: rest) with
      | some found => some (behind.reverse, found)
      | none => findWordFrom joins read (c :: behind) (joins c) rest := rfl

/-- A whole run is passed over when the reader does not accept at its beginning. -/
theorem findWordFrom_run {α : Type} {joins : Char → Bool} {read : List Char → Option α} {run rest : List Char}
    (hne : run ≠ []) (hrun : ∀ c ∈ run, joins c = true) (hnone : read (run ++ rest) = none) (behind : List Char) :
    findWordFrom joins read behind false (run ++ rest) = findWordFrom joins read (run.reverse ++ behind) true rest := by
  have hjoined : ∀ (run behind : List Char), (∀ c ∈ run, joins c = true) →
      findWordFrom joins read behind true (run ++ rest) =
        findWordFrom joins read (run.reverse ++ behind) true rest := by
    intro run
    induction run with
    | nil => exact fun behind _ => rfl
    | cons c run ih =>
      intro behind hrun
      rw [List.forall_mem_cons] at hrun
      simp only [List.cons_append, findWordFrom_step, if_true, hrun.1, ih _ hrun.2, List.reverse_cons,
        List.append_assoc, List.nil_append]
  obtain ⟨c, run, rfl⟩ := List.exists_cons_of_ne_nil hne
  rw [List.forall_mem_cons] at hrun
  rw [List.cons_append] at hnone ⊢
  simp only [findWordFrom_step, Bool.false_eq_true, if_false, hnone, hrun.1, hjoined _ _ hrun.2, List.reverse_cons,
    List.append_assoc, List.cons_append, List.nil_append]

theorem findWordFrom_found {α : Type} {joins : Char → Bool} {read : List Char → Option α} {text : List Char} {found : α}
    (hne : text ≠ []) (hread : read text = some found) (behind : List Char) :
    findWordFrom joins read behind false text = some (behind.reverse, found) := by
  obtain ⟨c, rest, rfl⟩ := List.exists_cons_of_ne_nil hne
  rw [findWordFrom_step, if_neg (by decide), hread]

theorem findWordFrom_cons {α : Type} {joins : Char → Bool} {read : List Char → Option α} {d : Char} {rest : List Char}
    (hnone : read (d :: rest) = none) (behind : List Char) (joined : Bool) :
    findWordFrom joins read behind joined (d :: rest) = findWordFrom joins read (d :: behind) (joins d) rest := by
  rw [findWordFrom_step, hnone, ite_self]

theorem findWordFrom_behind {α : Type} (joins : Char → Bool) (read : List Char → Option α) (behind : List Char)
    (joined : Bool) (text : List Char) :
    findWordFrom joins read behind joined text =
      (findWordFrom joins read [] joined text).map fun (passed, found) => (behind.reverse ++ passed, found) := by
  induction text generalizing behind joined with
  | nil => rfl
  | cons c text ih =>
    simp only [findWordFrom_step]
    cases (if joined = true then none else read (c :: text)) with
    | some found => simp
    | none =>
      simp only
      rw [ih (c :: behind), ih [c], Option.map_map]
      congr 1
      funext found
      simp

/-- The place where a search finds something: the reader accepts there, and no character that joins stands in front. -/
theorem findWordFrom_eq_some {α : Type} {joins : Char → Bool} {read : List Char → Option α} {joined : Bool}
    {text passed : List Char} {found : α} (h : findWordFrom joins read [] joined text = some (passed, found)) :
    ∃ here, text = passed ++ here ∧ read here = some found ∧ (passed.getLast?.map joins).getD joined = false := by
  induction text generalizing joined passed with
  | nil => exact absurd h (by simp)
  | cons c text ih =>
    simp only [findWordFrom_step] at h
    cases hread : (if joined = true then none else read (c :: text)) with
    | some other =>
      simp only [hread, List.reverse_nil, Option.some.injEq, Prod.mk.injEq] at h
      obtain ⟨rfl, rfl⟩ := h
      by_cases hjoined : joined = true
      · simp only [if_pos hjoined, reduceCtorEq] at hread
      · rw [if_neg hjoined] at hread
        exact ⟨c :: text, rfl, hread, by simpa using hjoined⟩
    | none =>
      simp only [hread] at h
      rw [findWordFrom_behind] at h
      obtain ⟨⟨later, _⟩, hlater, heq⟩ := Option.map_eq_some_iff.1 h
      obtain ⟨rfl, rfl⟩ := Prod.mk.inj heq
      obtain ⟨here, rfl, hhere, hfree⟩ := ih hlater
      refine ⟨here, rfl, hhere, ?_⟩
      have hlast : (([c].reverse ++ later).getLast?.map joins).getD joined =
          (later.getLast?.map joins).getD (joins c) := by
        rw [List.reverse_singleton, List.singleton_append, List.getLast?_cons]
        cases later.getLast? <;> rfl
      rw [hlast, hfree]

/-- A character that joins no words and that the reader looks no further than cuts a search: what is found up to it
stays, and otherwise the search goes on behind it. -/
theorem findWord_append_cons {joins : Char → Bool} {read : List Char → Option (List Char)} {d : Char}
    (hd : joins d = false) (hread : ∀ text rest, read (text ++ d :: rest) = (read (text ++ [d])).map (· ++ rest))
    (left right : List Char) :
    findWord joins read (left ++ d :: right) =
      ((findWord joins read (left ++ [d])).map fun (passed, found) => (passed, found ++ right)).or
        ((findWord joins read right).map fun (passed, found) => (left ++ d :: passed, found)) := by
  -- by induction on what is in front of the cut, for a search that has passed anything before
  have hfrom : ∀ behind joined, findWordFrom joins read behind joined (left ++ d :: right) =
      ((findWordFrom joins read behind joined (left ++ [d])).map fun (passed, found) => (passed, found ++ right)).or
        (findWordFrom joins read (d :: (left.reverse ++ behind)) false right) := by
    induction left with
    | nil =>
      intro behind joined
      have hhead := hread [] right
      rw [List.nil_append, List.nil_append] at hhead
      simp only [List.nil_append, findWordFrom_step, findWordFrom_nil, hhead, hd]
      cases joined <;> cases read [d] <;> rfl
    | cons c left ih =>
      intro behind joined
      have hhead := hread (c :: left) right
      rw [List.cons_append, List.cons_append] at hhead
      simp only [List.cons_append, findWordFrom_step, hhead, ih, List.reverse_cons, List.append_assoc, List.nil_append]
      cases joined <;> cases read (c :: (left ++ [d])) <;> rfl
  rw [findWord, hfrom, findWordFrom_behind joins read (d :: (left.reverse ++ []))]
  simp [findWord]

section Find

variable {joins : Char → Bool} {read : List Char → Option (List Char)} {width : Nat}

/-- A reader that leaves over an end of the text and takes at least so many characters makes a search do the same. -/
theorem findWordFrom_suffix (consumes : ∀ text rest, read text = some rest →
    ∃ taken, text = taken ++ rest ∧ width ≤ taken.length) {behind : List Char} {joined : Bool}
    {text before rest : List Char} (h : findWordFrom joins read behind joined text = some (before, rest)) :
    ∃ taken, text = taken ++ rest ∧ width ≤ taken.length := by
  induction text generalizing behind joined with
  | nil => simp at h
  | cons c text ih =>
    rw [findWordFrom_step] at h
    split at h
    · next found hfound =>
      split at hfound
      · exact absurd hfound (by simp)
      · obtain ⟨-, rfl⟩ : _ ∧ found = rest := by simpa using h
        exact consumes _ _ hfound
    · obtain ⟨taken, rfl, hwidth⟩ := ih h
      exact ⟨c :: taken, rfl, by simp; omega⟩

/-- What a search finds stays where it is when the text is continued differently, provided that the reader is settled
by every text that ends with what it left over. -/
theorem findWordFrom_append (consumes : ∀ text rest, read text = some rest →
    ∃ taken, text = taken ++ rest ∧ width ≤ taken.length) (hwidth : 0 < width) {left : List Char}
    (settled : ∀ taken, width ≤ taken.length → ∀ more,
      read (taken ++ left ++ more) = (read (taken ++ left)).map (· ++ more))
    {behind : List Char} {joined : Bool} {text more before : List Char}
    (h : findWordFrom joins read behind joined (text ++ more) = some (before, left ++ more)) (other : List Char) :
    findWordFrom joins read behind joined (text ++ other) = some (before, left ++ other) := by
  induction text generalizing behind joined with
  | nil =>
    obtain ⟨taken, htaken, hle⟩ := findWordFrom_suffix consumes h
    have := congrArg List.length htaken
    simp at this
    omega
  | cons c text ih =>
    rw [List.cons_append, findWordFrom_step] at h ⊢
    split at h
    · next found hfound =>
      split at hfound
      · exact absurd hfound (by simp)
      · next hjoined =>
        obtain ⟨rfl, rfl⟩ : behind.reverse = before ∧ found = left ++ more := by simpa using h
        obtain ⟨taken, htaken, hle⟩ := consumes _ _ hfound
        have hc : c :: text = taken ++ left := by
          rw [← List.cons_append, ← List.append_assoc] at htaken
          exact List.append_cancel_right htaken
        have hread : read (taken ++ left) = some left := by
          have := settled taken hle more
          rw [← hc, List.cons_append, hfound] at this
          obtain ⟨found, hfound, heq⟩ := Option.map_eq_some_iff.1 this.symm
          rw [← hc, hfound, List.append_cancel_right heq]
        have hother : read (c :: (text ++ other)) = some (left ++ other) := by
          rw [← List.cons_append, hc, settled taken hle other, hread]
          rfl
        simp [hjoined, hother]
    · next hnone =>
      obtain ⟨taken, htaken, hle⟩ := findWordFrom_suffix consumes h
      have htext : text = taken ++ left := by
        rw [← List.append_assoc] at htaken
        exact List.append_cancel_right htaken
      have hle' : width ≤ (c :: taken).length := by simp; omega
      have hother : (if joined = true then none else read (c :: (text ++ other))) = none := by
        by_cases hj : joined = true
        · rw [if_pos hj]
        · rw [if_neg hj] at hnone ⊢
          have hc : c :: text = c :: taken ++ left := by rw [htext, List.cons_append]
          have := settled (c :: taken) hle' more
          rw [← hc, List.cons_append, hnone] at this
          rw [← List.cons_append, hc, settled (c :: taken) hle' other, ← hc, Option.map_eq_none_iff.1 this.symm]
          rfl
      rw [hother]
      exact ih h

end Find

/-! ### What a text begins with -/

/-- A text that begins with some word. -/
def Begins (word text : String) : Prop :=
  word.toList <+: text.toList

instance (word text : String) : Decidable (Begins word text) :=
  inferInstanceAs (Decidable (word.toList <+: text.toList))

theorem begins_append (word rest : String) : Begins word (word ++ rest) := by
  rw [Begins, String.toList_append]
  exact List.prefix_append ..

/-- A text with other letters at its head does not begin with the word, however it goes on. -/
theorem not_begins_append {word front : String} (hlong : ¬ Begins word front) (hshort : ¬ Begins front word)
    (rest : String) : ¬ Begins word (front ++ rest) := by
  intro h
  rw [Begins, String.toList_append] at h
  rcases List.prefix_or_prefix_of_prefix h (List.prefix_append front.toList rest.toList) with hword | hfront
  · exact hlong hword
  · exact hshort hfront

/-- A text that is written out is compared letter by letter. -/
theorem not_begins_ofList {word : String} {letters : List Char} (h : ¬ word.toList <+: letters) :
    ¬ Begins word (String.ofList letters) := by
  rw [Begins, @String.toList_ofList letters]
  exact h

end ContractMigration.Text
