import ContractMigration.Proofs.Text.Blank

/-!
# Words and tidy texts

The words of a text are compositional: a blank cuts a text in two, and the words of both parts are the words of the
whole; a text without blanks that is glued to either end becomes a part of one word. A text is tidy when single spaces
separate its words and none stands at an end. Tidy texts are the ones that collapsing leaves alone.
-/

namespace ContractMigration.Text

/-! ### Maximal pieces -/

theorem pieces_append_cons {p : Char → Bool} {d : Char} (hd : p d = true) (left right : List Char) :
    ((left ++ d :: right).splitOnP p).filter (!·.isEmpty) =
      (left.splitOnP p).filter (!·.isEmpty) ++ (right.splitOnP p).filter (!·.isEmpty) := by
  rw [List.splitOnP_append_cons left right hd, List.filter_append]

theorem pieces_of_all {p : Char → Bool} {word : List Char} (hne : word ≠ []) (h : ∀ c ∈ word, p c = false) :
    (word.splitOnP p).filter (!·.isEmpty) = [word] := by
  rw [List.splitOnP_eq_singleton h]
  simp [hne]

theorem subset_of_mem_splitOnP {α : Type} {p : α → Bool} {all part : List α} (h : part ∈ all.splitOnP p) :
    part ⊆ all := by
  induction all generalizing part with
  | nil =>
    rw [List.splitOnP_nil, List.mem_singleton] at h
    exact h ▸ List.Subset.refl _
  | cons a all ih =>
    obtain ⟨first, others, hsplit⟩ := List.exists_cons_of_ne_nil (List.splitOnP_ne_nil p all)
    rw [List.splitOnP_cons_eq_if_modifyHead, hsplit] at h
    rw [hsplit] at ih
    split at h
    · rcases List.mem_cons.1 h with rfl | h
      · exact List.nil_subset _
      · exact List.subset_cons_of_subset a (ih h)
    · rcases List.mem_cons.1 h with rfl | h
      · exact List.cons_subset_cons a (ih List.mem_cons_self)
      · exact List.subset_cons_of_subset a (ih (List.mem_cons_of_mem _ h))

@[simp] theorem words_nil : words [] = [] := rfl

theorem words_append_cons {d : Char} (hd : isBlank d = true) (left right : List Char) :
    words (left ++ d :: right) = words left ++ words right :=
  pieces_append_cons hd left right

theorem words_append_space (left right : List Char) : words (left ++ ' ' :: right) = words left ++ words right :=
  words_append_cons (by decide) left right

theorem words_of_word {word : List Char} (hne : word ≠ []) (h : ∀ c ∈ word, isBlank c = false) : words word = [word] :=
  pieces_of_all hne h

theorem words_cons_blank {d : Char} (hd : isBlank d = true) (text : List Char) : words (d :: text) = words text :=
  words_append_cons hd [] text

theorem words_of_blank {text : List Char} (h : ∀ c ∈ text, isBlank c = true) : words text = [] := by
  induction text with
  | nil => rfl
  | cons c text ih =>
    rw [List.forall_mem_cons] at h
    rw [words_cons_blank h.1, ih h.2]

theorem words_append_blank {gap : List Char} (h : ∀ c ∈ gap, isBlank c = true) (text : List Char) :
    words (text ++ gap) = words text := by
  cases gap with
  | nil => rw [List.append_nil]
  | cons c gap =>
    rw [List.forall_mem_cons] at h
    rw [words_append_cons h.1, words_of_blank h.2, List.append_nil]

/-- A text without blanks in front of another text begins its first word. -/
theorem words_word_append {word : List Char} (hne : word ≠ []) (hword : ∀ c ∈ word, isBlank c = false)
    (text : List Char) : ∃ after rest, words (word ++ text) = (word ++ after) :: rest ∧ ∀ w ∈ rest, w ∈ words text := by
  rcases all_or_first (!isBlank ·) text with hall | ⟨first, d, rest, rfl, hfirst, hd⟩
  · have hblank : ∀ c ∈ word ++ text, isBlank c = false := List.forall_mem_append.2 ⟨hword, by simpa using hall⟩
    exact ⟨text, [], words_of_word (by simp [hne]) hblank, fun w hw => absurd hw List.not_mem_nil⟩
  · have hblank : ∀ c ∈ word ++ first, isBlank c = false := List.forall_mem_append.2 ⟨hword, by simpa using hfirst⟩
    have hd' : isBlank d = true := by simpa using hd
    refine ⟨first, words rest, ?_, fun w hw => ?_⟩
    · rw [← List.append_assoc, words_append_cons hd', words_of_word (by simp [hne]) hblank]
      rfl
    · rw [words_append_cons hd']
      exact List.mem_append_right _ hw

/-- A text without blanks behind another text ends its last word. -/
theorem words_append_word {word : List Char} (hne : word ≠ []) (hword : ∀ c ∈ word, isBlank c = false)
    (text : List Char) :
    ∃ front before, words (text ++ word) = front ++ [before ++ word] ∧ ∀ w ∈ front, w ∈ words text := by
  rcases all_or_first (!isBlank ·) text with hall | ⟨first, d, rest, rfl, hfirst, hd⟩
  · have hblank : ∀ c ∈ text ++ word, isBlank c = false := List.forall_mem_append.2 ⟨by simpa using hall, hword⟩
    exact ⟨[], text, words_of_word (by simp [hne]) hblank, fun w hw => absurd hw List.not_mem_nil⟩
  · have hd' : isBlank d = true := by simpa using hd
    obtain ⟨front, before, hwords, hfront⟩ := words_append_word hne hword rest
    refine ⟨words first ++ front, before, ?_, fun w hw => ?_⟩
    · rw [List.append_assoc, List.cons_append, words_append_cons hd', hwords, List.append_assoc]
    · rw [words_append_cons hd']
      exact (List.mem_append.1 hw).elim (List.mem_append_left _) fun h => List.mem_append_right _ (hfront w h)
termination_by text.length

/-- The words are the text without its blanks. -/
theorem flatten_words (text : List Char) : (words text).flatten = text.filter (!isBlank ·) := by
  rcases all_or_first (!isBlank ·) text with hall | ⟨first, d, rest, rfl, hfirst, hd⟩
  · by_cases hne : text = []
    · rw [hne]
      rfl
    · rw [words_of_word hne (by simpa using hall), List.flatten_singleton, List.filter_eq_self.2 hall]
  · have hd' : isBlank d = true := by simpa using hd
    have hwords : (words first).flatten = first := by
      by_cases hne : first = []
      · rw [hne]
        rfl
      · rw [words_of_word hne (by simpa using hfirst), List.flatten_singleton]
    rw [words_append_cons hd', List.flatten_append, flatten_words rest, hwords, List.filter_append,
      List.filter_eq_self.2 hfirst, List.filter_cons_of_neg (by simp [hd'])]
termination_by text.length

/-- A piece without blanks occurs in a text exactly when it occurs in one of the words. -/
theorem any_occursIn_words {piece : List Char} (hne : piece ≠ []) (h : ∀ c ∈ piece, isBlank c = false)
    (text : List Char) : (words text).any (occursIn piece) = occursIn piece text := by
  have hnil : occursIn piece [] = false := by simpa [occursIn] using hne
  have hword : ∀ first : List Char, (∀ c ∈ first, isBlank c = false) →
      (words first).any (occursIn piece) = occursIn piece first := by
    intro first hfirst
    by_cases hempty : first = []
    · rw [hempty, hnil]
      rfl
    · rw [words_of_word hempty hfirst, List.any_cons, List.any_nil, Bool.or_false]
  rcases all_or_first (!isBlank ·) text with hall | ⟨first, d, rest, rfl, hfirst, hd⟩
  · exact hword text (by simpa using hall)
  · have hd' : isBlank d = true := by simpa using hd
    have hforeign : d ∉ piece := fun hmem => absurd (h d hmem) (by simp [hd'])
    rw [words_append_cons hd', List.any_append, hword first (by simpa using hfirst), any_occursIn_words hne h rest,
      occursIn_append_cons hne hforeign]
termination_by text.length

/-! ### Runs of word characters -/

theorem wordRuns_append_cons {d : Char} (hd : isWordChar d = false) (left right : List Char) :
    wordRuns (left ++ d :: right) = wordRuns left ++ wordRuns right :=
  pieces_append_cons (by simp [hd]) left right

theorem wordRuns_of_word {word : List Char} (hne : word ≠ []) (h : ∀ c ∈ word, isWordChar c = true) :
    wordRuns word = [word] :=
  pieces_of_all hne (by simpa using h)

/-! ### Tidy texts -/

theorem unwords_append {left right : List (List Char)} (hleft : left ≠ []) (hright : right ≠ []) :
    unwords (left ++ right) = unwords left ++ ' ' :: unwords right := by
  induction left with
  | nil => exact absurd rfl hleft
  | cons word left ih =>
    obtain ⟨next, more, hnext⟩ := List.exists_cons_of_ne_nil (List.append_ne_nil_of_right_ne_nil left hright)
    have hcons : unwords (word :: (left ++ right)) = word ++ ' ' :: unwords (left ++ right) := by
      rw [hnext, unwords, unwords, List.intercalate_cons_cons, List.append_assoc]
      rfl
    cases left with
    | nil => rw [List.cons_append, hcons, List.nil_append, unwords, unwords, List.intercalate_singleton]
    | cons other left =>
      rw [List.cons_append, hcons, ih (by simp), unwords, unwords, unwords, List.intercalate_cons_cons]
      simp

theorem occursIn_unwords {piece : List Char} (hne : piece ≠ []) (h : ∀ c ∈ piece, isBlank c = false)
    (parts : List (List Char)) : occursIn piece (unwords parts) = parts.any (occursIn piece) := by
  have hspace : ' ' ∉ piece := fun hmem => absurd (h ' ' hmem) (by decide)
  induction parts with
  | nil => simpa [unwords, occursIn] using hne
  | cons part parts ih =>
    cases parts with
    | nil => rw [unwords, List.intercalate_singleton, List.any_cons, List.any_nil, Bool.or_false]
    | cons next parts =>
      have hcons : unwords (part :: next :: parts) = part ++ ' ' :: unwords (next :: parts) :=
        (List.intercalate_cons_cons ..).trans (List.append_assoc ..)
      rw [hcons, occursIn_append_cons hne hspace, ih]
      rfl

/-- Collapsing neither makes nor breaks a piece without blanks. -/
theorem occursIn_collapse {piece : List Char} (hne : piece ≠ []) (h : ∀ c ∈ piece, isBlank c = false)
    (text : List Char) : occursIn piece (collapse text) = occursIn piece text := by
  rw [collapse, occursIn_unwords hne h, any_occursIn_words hne h]

theorem collapse_append_space {left right : List Char} (hleft : words left ≠ []) (hright : words right ≠ []) :
    collapse (left ++ ' ' :: right) = collapse left ++ ' ' :: collapse right := by
  rw [collapse, words_append_space, unwords_append hleft hright]
  rfl

theorem ne_nil_of_mem_words {text word : List Char} (h : word ∈ words text) : word ≠ [] := by
  have hfilter := (List.mem_filter.1 h).2
  simpa using hfilter

theorem isBlank_of_mem_words {text word : List Char} (h : word ∈ words text) : ∀ c ∈ word, isBlank c = false := by
  intro c hc
  have hfilter : c ∈ text.filter (!isBlank ·) := by
    rw [← flatten_words]
    exact List.mem_flatten.2 ⟨word, h, hc⟩
  simpa using (List.mem_filter.1 hfilter).2

theorem words_unwords {parts : List (List Char)} (hne : ∀ part ∈ parts, part ≠ [])
    (h : ∀ part ∈ parts, ∀ c ∈ part, isBlank c = false) : words (unwords parts) = parts := by
  induction parts with
  | nil => rfl
  | cons part parts ih =>
    rw [List.forall_mem_cons] at hne h
    cases parts with
    | nil => rw [unwords, List.intercalate_singleton, words_of_word hne.1 h.1]
    | cons next parts =>
      have hcons : unwords (part :: next :: parts) = part ++ ' ' :: unwords (next :: parts) :=
        (List.intercalate_cons_cons ..).trans (List.append_assoc ..)
      rw [hcons, words_append_space, words_of_word hne.1 h.1, ih hne.2 h.2]
      rfl

theorem words_collapse (text : List Char) : words (collapse text) = words text :=
  words_unwords (fun _ => ne_nil_of_mem_words) fun _ => isBlank_of_mem_words

theorem collapse_ne_nil {text : List Char} (h : words text ≠ []) : collapse text ≠ [] := by
  obtain ⟨word, rest, hwords⟩ := List.exists_cons_of_ne_nil h
  have hmem : word ∈ words text := by simp [hwords]
  have hword := ne_nil_of_mem_words hmem
  rw [collapse, hwords]
  cases rest with
  | nil => rwa [unwords, List.intercalate_singleton]
  | cons next rest =>
    rw [unwords, List.intercalate_cons_cons]
    simp [hword]

theorem collapse_word {word : List Char} (hne : word ≠ []) (hword : ∀ c ∈ word, isBlank c = false) :
    collapse word = word := by
  rw [collapse, words_of_word hne hword, unwords, List.intercalate_singleton]

/-- A word in front of a text that does not begin with a blank is glued to it. -/
theorem collapse_word_append {word right : List Char} (hne : word ≠ []) (hword : ∀ c ∈ word, isBlank c = false)
    (hright : ∀ c ∈ right.head?, isBlank c = false) : collapse (word ++ right) = word ++ collapse right := by
  rcases all_or_first (!isBlank ·) right with hall | ⟨first, d, rest, rfl, hfirst, hd⟩
  · have hblank : ∀ c ∈ right, isBlank c = false := by simpa using hall
    rw [collapse_word (by simp [hne]) (List.forall_mem_append.2 ⟨hword, hblank⟩)]
    cases right with
    | nil => rfl
    | cons c right => rw [collapse_word (List.cons_ne_nil c right) hblank]
  · have hd' : isBlank d = true := by simpa using hd
    have hfirst' : ∀ c ∈ first, isBlank c = false := by simpa using hfirst
    have hne' : first ≠ [] := by
      rintro rfl
      exact absurd hd' (by simp [hright d rfl])
    rw [← List.append_assoc, collapse, collapse, words_append_cons hd', words_append_cons hd',
      words_of_word (by simp [hne]) (List.forall_mem_append.2 ⟨hword, hfirst'⟩), words_of_word hne' hfirst']
    cases words rest with
    | nil => simp [unwords]
    | cons next others => simp [unwords, List.intercalate_cons_cons]

theorem exists_collapse_eq_cons {c : Char} (hc : isBlank c = false) (text : List Char) :
    ∃ more, collapse (c :: text) = c :: more := by
  obtain ⟨after, rest, hwords, -⟩ := words_word_append (List.cons_ne_nil c []) (List.forall_mem_singleton.2 hc) text
  rw [List.singleton_append] at hwords
  rw [collapse, hwords]
  cases rest with
  | nil => exact ⟨after, by rw [unwords, List.intercalate_singleton, List.singleton_append]⟩
  | cons next rest => exact ⟨_, by rw [unwords, List.intercalate_cons_cons]; rfl⟩

/-- Whether a blank was read last behind a text in which every blank is a space between two other characters; nothing
when some blank is not. The text begins behind a blank or not. -/
def blankBehind (behindBlank : Bool) : List Char → Option Bool
  | [] => some behindBlank
  | c :: rest =>
    if isBlank c then if c == ' ' && !behindBlank then blankBehind true rest else none else blankBehind false rest

/-- Single spaces separate the words of a tidy text, and it has at least one word. -/
def IsTidy (text : List Char) : Prop :=
  blankBehind true text = some false

instance (text : List Char) : Decidable (IsTidy text) :=
  inferInstanceAs (Decidable (blankBehind true text = some false))

theorem blankBehind_append (behindBlank : Bool) (left right : List Char) :
    blankBehind behindBlank (left ++ right) =
      (blankBehind behindBlank left).bind fun behind => blankBehind behind right := by
  induction left generalizing behindBlank with
  | nil => rfl
  | cons c left ih =>
    simp only [List.cons_append, blankBehind]
    split
    · split
      · exact ih _
      · rfl
    · exact ih _

theorem blankBehind_of_word {word : List Char} (hne : word ≠ []) (h : ∀ c ∈ word, isBlank c = false)
    (behindBlank : Bool) : blankBehind behindBlank word = some false := by
  have hrest : ∀ word : List Char, (∀ c ∈ word, isBlank c = false) → blankBehind false word = some false := by
    intro word h
    induction word with
    | nil => rfl
    | cons c word ih =>
      rw [List.forall_mem_cons] at h
      rw [blankBehind, h.1, if_neg (by decide), ih h.2]
  obtain ⟨c, more, rfl⟩ := List.exists_cons_of_ne_nil hne
  rw [List.forall_mem_cons] at h
  rw [blankBehind, h.1, if_neg (by decide), hrest more h.2]

theorem isTidy_word {word : List Char} (hne : word ≠ []) (h : ∀ c ∈ word, isBlank c = false) : IsTidy word :=
  blankBehind_of_word hne h true

namespace IsTidy

theorem ne_nil {text : List Char} (h : IsTidy text) : text ≠ [] := by
  rintro rfl
  exact absurd h (by decide)

/-- A tidy text begins with a word, so it does not matter what stands in front of it. -/
theorem blankBehind {text : List Char} (h : IsTidy text) (behindBlank : Bool) :
    Text.blankBehind behindBlank text = some false := by
  obtain ⟨c, rest, rfl⟩ := List.exists_cons_of_ne_nil h.ne_nil
  unfold IsTidy at h
  rw [Text.blankBehind] at h ⊢
  split at h
  · rw [Bool.not_true, Bool.and_false] at h
    exact absurd h (by simp)
  · next hc => rw [if_neg hc, h]

theorem append {left right : List Char} (hleft : IsTidy left) (hright : IsTidy right) : IsTidy (left ++ right) := by
  rw [IsTidy, blankBehind_append, hleft, Option.bind_some, hright.blankBehind]

theorem append_space {left right : List Char} (hleft : IsTidy left) (hright : IsTidy right) :
    IsTidy (left ++ ' ' :: right) := by
  rw [IsTidy, blankBehind_append, hleft, Option.bind_some, Text.blankBehind, if_pos (by decide), if_pos (by decide)]
  exact hright

theorem exists_eq_cons {text : List Char} (h : IsTidy text) : ∃ c rest, text = c :: rest ∧ isBlank c = false := by
  obtain ⟨c, rest, rfl⟩ := List.exists_cons_of_ne_nil h.ne_nil
  refine ⟨c, rest, rfl, ?_⟩
  unfold IsTidy at h
  rw [Text.blankBehind] at h
  split at h
  · rw [Bool.not_true, Bool.and_false] at h
    exact absurd h (by simp)
  · next hc => simpa using hc

theorem words_append_ne_nil {text : List Char} (h : IsTidy text) (more : List Char) : words (text ++ more) ≠ [] := by
  intro hnil
  obtain ⟨c, rest, rfl, hc⟩ := h.exists_eq_cons
  have hflat := flatten_words (c :: rest ++ more)
  rw [hnil, List.flatten_nil, List.cons_append, List.filter_cons_of_pos (by simp [hc])] at hflat
  exact absurd hflat (by simp)

theorem words_ne_nil {text : List Char} (h : IsTidy text) : words text ≠ [] := by
  have hne := h.words_append_ne_nil []
  rwa [List.append_nil] at hne

/-- Collapsing leaves a tidy text alone, also when more text is glued to it. -/
theorem collapse_append {left right : List Char} (hleft : IsTidy left)
    (hright : ∀ c ∈ right.head?, isBlank c = false) : Text.collapse (left ++ right) = left ++ Text.collapse right := by
  rcases all_or_first (!isBlank ·) left with hall | ⟨first, d, rest, rfl, hfirst, hd⟩
  · exact collapse_word_append hleft.ne_nil (by simpa using hall) hright
  · have hd' : isBlank d = true := by simpa using hd
    have hfirst' : ∀ c ∈ first, isBlank c = false := by simpa using hfirst
    unfold IsTidy at hleft
    by_cases hne : first = []
    · rw [hne, List.nil_append, Text.blankBehind, if_pos hd', Bool.not_true, Bool.and_false] at hleft
      exact absurd hleft (by simp)
    · rw [blankBehind_append, blankBehind_of_word hne hfirst', Option.bind_some, Text.blankBehind, if_pos hd'] at hleft
      split at hleft
      · next hspace =>
        obtain rfl : d = ' ' := by simpa using hspace
        have hrest : IsTidy rest := hleft
        have hwords : words first ≠ [] := by simp [words_of_word hne hfirst']
        rw [List.append_assoc, List.cons_append, collapse_append_space hwords (hrest.words_append_ne_nil right),
          hrest.collapse_append hright, collapse_word hne hfirst', List.append_assoc, List.cons_append]
      · exact absurd hleft (by simp)
termination_by left.length

theorem collapse {text : List Char} (h : IsTidy text) : Text.collapse text = text := by
  have hself := h.collapse_append (fun c hc => absurd hc (by simp) : ∀ c ∈ ([] : List Char).head?, isBlank c = false)
  have hnil : Text.collapse [] = [] := rfl
  rwa [hnil, List.append_nil] at hself

end IsTidy

end ContractMigration.Text
