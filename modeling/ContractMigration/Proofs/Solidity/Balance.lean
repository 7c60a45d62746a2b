import ContractMigration.Solidity.Bracket
import Mathlib.Data.List.Infix
import Mathlib.Data.List.TakeWhile

/-!
# Balanced texts

A text is balanced in a pair of brackets when no beginning of it closes more than it opens and all of it closes as
much as it opens. The search for a closer passes over a balanced text, and so does the split outside brackets once it
is inside some bracket. The rest of the theory counts brackets only here.
-/

namespace ContractMigration.Solidity

/-- No beginning of the text closes more brackets than it opens, and the totals are equal. -/
structure Balanced (opener closer : Char) (text : List Char) : Prop where
  front_le : ∀ front, front <+: text → front.count closer ≤ front.count opener
  total : text.count closer = text.count opener

theorem balanced_iff {opener closer : Char} {text : List Char} :
    Balanced opener closer text ↔
      (∀ front ∈ text.inits, front.count closer ≤ front.count opener) ∧ text.count closer = text.count opener := by
  refine ⟨fun h => ⟨fun front hfront => ?_, h.total⟩, fun ⟨hfront, htotal⟩ => ⟨fun front h => ?_, htotal⟩⟩
  · exact h.front_le front ((List.mem_inits front text).1 hfront)
  · exact hfront front ((List.mem_inits front text).2 h)

instance (opener closer : Char) (text : List Char) : Decidable (Balanced opener closer text) :=
  decidable_of_iff _ balanced_iff.symm

theorem balanced_of_not_mem {opener closer : Char} {text : List Char} (hopener : opener ∉ text)
    (hcloser : closer ∉ text) : Balanced opener closer text := by
  refine ⟨fun front hfront => ?_, by rw [List.count_eq_zero.2 hopener, List.count_eq_zero.2 hcloser]⟩
  rw [List.count_eq_zero.2 fun hmem => hcloser (hfront.subset hmem)]
  exact Nat.zero_le _

theorem prefix_append_cases {front left right : List Char} (h : front <+: left ++ right) :
    front <+: left ∨ ∃ behind, front = left ++ behind ∧ behind <+: right := by
  rcases List.prefix_or_prefix_of_prefix h (List.prefix_append left right) with hfront | ⟨behind, rfl⟩
  · exact .inl hfront
  · exact .inr ⟨behind, rfl, (List.prefix_append_right_inj left).1 h⟩

theorem Balanced.append {opener closer : Char} {left right : List Char} (hleft : Balanced opener closer left)
    (hright : Balanced opener closer right) : Balanced opener closer (left ++ right) := by
  refine ⟨fun front hfront => ?_, by simp only [List.count_append, hleft.total, hright.total]⟩
  rcases prefix_append_cases hfront with h | ⟨behind, rfl, hbehind⟩
  · exact hleft.front_le front h
  · simp only [List.count_append, hleft.total]
    have := hright.front_le behind hbehind
    omega

/-! ### The closer of an opener -/

theorem closingFrom_append_of_front_le {opener closer : Char} (hne : opener ≠ closer) {text : List Char}
    {depth : Nat} (h : ∀ front, front <+: text → front.count closer ≤ depth + front.count opener) (index : Nat)
    (rest : List Char) :
    closingFrom opener closer (depth + 1) index (text ++ rest) =
      closingFrom opener closer (depth + text.count opener - text.count closer + 1) (index + text.length) rest := by
  induction text generalizing depth index with
  | nil => rfl
  | cons c text ih =>
    have hfront : ∀ front, front <+: text → (c :: front).count closer ≤ depth + (c :: front).count opener :=
      fun front hfront => h (c :: front) (List.cons_prefix_cons.2 ⟨rfl, hfront⟩)
    rw [List.cons_append, closingFrom, List.length_cons]
    by_cases hopener : c = opener
    · subst hopener
      simp only [List.count_cons_self, List.count_cons_of_ne hne] at hfront ⊢
      rw [if_pos (beq_self_eq_true c), ih fun front h => by have := hfront front h; omega]
      congr 1 <;> omega
    · rw [if_neg (by simpa using hopener)]
      by_cases hcloser : c = closer
      · subst hcloser
        simp only [List.count_cons_self, List.count_cons_of_ne hopener] at hfront ⊢
        have hdepth := hfront [] List.nil_prefix
        rw [List.count_nil, List.count_nil] at hdepth
        obtain ⟨depth, rfl⟩ : ∃ less, depth = less + 1 := ⟨depth - 1, by omega⟩
        rw [if_pos (beq_self_eq_true c), if_neg (by omega), Nat.add_sub_cancel,
          ih fun front h => by have := hfront front h; omega]
        congr 1 <;> omega
      · simp only [List.count_cons_of_ne hopener, List.count_cons_of_ne hcloser] at hfront ⊢
        rw [if_neg (by simpa using hcloser), ih hfront]
        congr 1
        omega

/-- The closer behind a balanced text closes the opener in front of it. -/
theorem Balanced.closingFrom {opener closer : Char} (hne : opener ≠ closer) {text : List Char}
    (h : Balanced opener closer text) (rest : List Char) :
    Solidity.closingFrom opener closer 1 0 (text ++ closer :: rest) = some text.length := by
  have hfront : ∀ front, front <+: text → front.count closer ≤ 0 + front.count opener := by
    intro front hfront
    have := h.front_le front hfront
    omega
  rw [closingFrom_append_of_front_le hne hfront, h.total, Nat.zero_add, Nat.sub_self, Nat.zero_add,
    Solidity.closingFrom, if_neg (by simpa using hne.symm), if_pos (beq_self_eq_true closer), if_pos (Nat.le_refl _),
    Nat.zero_add]

theorem Balanced.splitAtClosing {opener closer : Char} (hne : opener ≠ closer) {text : List Char}
    (h : Balanced opener closer text) (rest : List Char) :
    Solidity.splitAtClosing opener closer (text ++ closer :: rest) = some (text, rest) := by
  rw [Solidity.splitAtClosing, h.closingFrom hne, Option.map_some, List.take_left, ← List.drop_drop, List.drop_left]
  rfl

theorem forall_front_cons {p : List Char → Prop} {c : Char} {text : List Char} :
    (∀ front, front <+: c :: text → p front) ↔ p [] ∧ ∀ front, front <+: text → p (c :: front) := by
  refine ⟨fun h => ⟨h [] List.nil_prefix, fun front hfront => h _ (List.cons_prefix_cons.2 ⟨rfl, hfront⟩)⟩, ?_⟩
  rintro ⟨hnil, hcons⟩ front hfront
  rcases List.prefix_cons_iff.1 hfront with rfl | ⟨behind, rfl, hbehind⟩
  · exact hnil
  · exact hcons behind hbehind

theorem closingFrom_add (opener closer : Char) (depth index more : Nat) (text : List Char) :
    closingFrom opener closer depth (index + more) text =
      (closingFrom opener closer depth index text).map (· + more) := by
  induction text generalizing depth index with
  | nil => rfl
  | cons c text ih =>
    simp only [closingFrom, Nat.add_right_comm index more 1, ih]
    split_ifs <;> rfl

/-- The bracket behind a text is matched by what follows it, wherever it stands. -/
theorem matchingBracket_append {opener closer : Char} (hcloser : closerOf? opener = some closer)
    (front text : List Char) :
    matchingBracket (front ++ opener :: text) front.length =
      .ok ((closingFrom opener closer 1 0 text).map (· + (front.length + 1))) := by
  rw [matchingBracket, List.drop_left]
  simp only [hcloser]
  rw [← closingFrom_add, Nat.zero_add]

/-- In front of the closer of the last of some open brackets the text never closes more than are open and closes all
of them but that one. -/
theorem closingFrom_eq_some {opener closer : Char} (hne : opener ≠ closer) {depth index found : Nat}
    {text : List Char} (h : closingFrom opener closer (depth + 1) index text = some found) :
    ∃ inside after, text = inside ++ closer :: after ∧ found = index + inside.length ∧
      (∀ front, front <+: inside → front.count closer ≤ depth + front.count opener) ∧
      inside.count closer = depth + inside.count opener := by
  induction text generalizing depth index with
  | nil => exact absurd h (by simp [closingFrom])
  | cons c text ih =>
    rw [closingFrom] at h
    by_cases hopener : c = opener
    · subst hopener
      rw [if_pos (beq_self_eq_true c)] at h
      obtain ⟨inside, after, rfl, rfl, hfront, htotal⟩ := ih h
      refine ⟨c :: inside, after, rfl, by rw [List.length_cons]; omega, forall_front_cons.2 ⟨Nat.zero_le _, ?_⟩, ?_⟩
      · intro front hbehind
        have := hfront front hbehind
        rw [List.count_cons_of_ne hne, List.count_cons_self]
        omega
      · rw [List.count_cons_of_ne hne, List.count_cons_self]
        omega
    · rw [if_neg (by simpa using hopener)] at h
      by_cases hcloser : c = closer
      · subst hcloser
        rw [if_pos (beq_self_eq_true c)] at h
        cases depth with
        | zero =>
          rw [if_pos (Nat.le_refl _), Option.some.injEq] at h
          refine ⟨[], text, rfl, h.symm, fun front hfront => ?_, rfl⟩
          rw [List.prefix_nil.1 hfront]
          exact Nat.zero_le _
        | succ depth =>
          rw [if_neg (by omega), Nat.add_sub_cancel] at h
          obtain ⟨inside, after, rfl, rfl, hfront, htotal⟩ := ih h
          refine ⟨c :: inside, after, rfl, by rw [List.length_cons]; omega,
            forall_front_cons.2 ⟨Nat.zero_le _, ?_⟩, ?_⟩
          · intro front hbehind
            have := hfront front hbehind
            rw [List.count_cons_of_ne hopener, List.count_cons_self]
            omega
          · rw [List.count_cons_of_ne hopener, List.count_cons_self]
            omega
      · rw [if_neg (by simpa using hcloser)] at h
        obtain ⟨inside, after, rfl, rfl, hfront, htotal⟩ := ih h
        refine ⟨c :: inside, after, rfl, by rw [List.length_cons]; omega,
          forall_front_cons.2 ⟨Nat.zero_le _, ?_⟩, ?_⟩
        · intro front hbehind
          rw [List.count_cons_of_ne hopener, List.count_cons_of_ne hcloser]
          exact hfront front hbehind
        · rw [List.count_cons_of_ne hopener, List.count_cons_of_ne hcloser]
          exact htotal

/-- What stands between an opener and its closer is balanced. -/
theorem exists_balanced_of_closingFrom {opener closer : Char} (hne : opener ≠ closer) {length : Nat}
    {text : List Char} (h : closingFrom opener closer 1 0 text = some length) :
    ∃ inside after, text = inside ++ closer :: after ∧ inside.length = length ∧ Balanced opener closer inside := by
  obtain ⟨inside, after, htext, hlength, hfront, htotal⟩ := closingFrom_eq_some hne h
  simp only [Nat.zero_add] at hlength hfront htotal
  exact ⟨inside, after, htext, hlength.symm, hfront, htotal⟩

/-- A search that finds nothing has passed no more closers than there were brackets open. -/
theorem count_le_of_closingFrom_eq_none {opener closer : Char} (hne : opener ≠ closer) {depth index : Nat}
    {text : List Char} (h : closingFrom opener closer (depth + 1) index text = none) :
    text.count closer ≤ depth + text.count opener := by
  induction text generalizing depth index with
  | nil => exact Nat.zero_le _
  | cons c text ih =>
    rw [closingFrom] at h
    by_cases hopener : c = opener
    · subst hopener
      rw [if_pos (beq_self_eq_true c)] at h
      have := ih h
      rw [List.count_cons_of_ne hne, List.count_cons_self]
      omega
    · rw [if_neg (by simpa using hopener)] at h
      by_cases hcloser : c = closer
      · subst hcloser
        rw [if_pos (beq_self_eq_true c)] at h
        cases depth with
        | zero => exact absurd h (by simp)
        | succ depth =>
          rw [if_neg (by omega), Nat.add_sub_cancel] at h
          have := ih h
          rw [List.count_cons_self, List.count_cons_of_ne hopener]
          omega
      · rw [if_neg (by simpa using hcloser)] at h
        rw [List.count_cons_of_ne hopener, List.count_cons_of_ne hcloser]
        exact ih h

/-- An opener in a balanced text is closed in it. -/
theorem Balanced.exists_closed {opener closer : Char} (hne : opener ≠ closer) {front rest : List Char}
    (h : Balanced opener closer (front ++ opener :: rest)) :
    ∃ inside after, rest = inside ++ closer :: after ∧ Balanced opener closer inside := by
  cases hclose : Solidity.closingFrom opener closer 1 0 rest with
  | some length =>
    obtain ⟨inside, after, hrest, -, hinside⟩ := exists_balanced_of_closingFrom hne hclose
    exact ⟨inside, after, hrest, hinside⟩
  | none =>
    have hfront := h.front_le front (List.prefix_append _ _)
    have hrest := count_le_of_closingFrom_eq_none hne hclose
    have htotal := h.total
    rw [List.count_append, List.count_append, List.count_cons_self, List.count_cons_of_ne hne] at htotal
    omega

theorem splitAtClosing_eq_some {opener closer : Char} (hne : opener ≠ closer) {text inside after : List Char}
    (h : splitAtClosing opener closer text = some (inside, after)) : text = inside ++ closer :: after := by
  obtain ⟨length, hclose, hcut⟩ := Option.map_eq_some_iff.1 h
  obtain ⟨found, behind, rfl, rfl, -⟩ := exists_balanced_of_closingFrom hne hclose
  rw [List.take_left, List.drop_length_add_append, List.drop_succ_cons, List.drop_zero, Prod.mk.injEq] at hcut
  rw [hcut.1, hcut.2]

/-! ### Splitting outside brackets -/

/-- The depth behind a text that begins at a depth, unless the separator stands outside all brackets in it. -/
def depthBehind (separator : Char) : (depth : Nat) → List Char → Option Nat
  | depth, [] => some depth
  | depth, c :: rest =>
    if separator = c ∧ nestingAfter depth c = 0 then none else depthBehind separator (nestingAfter depth c) rest

theorem depthBehind_append (separator : Char) (depth : Nat) (left right : List Char) :
    depthBehind separator depth (left ++ right) =
      (depthBehind separator depth left).bind fun behind => depthBehind separator behind right := by
  induction left generalizing depth with
  | nil => rfl
  | cons c left ih =>
    simp only [List.cons_append, depthBehind]
    split
    · rfl
    · exact ih _

theorem splitOutsideBracketsOnto_append {separator : Char} {depth behind : Nat} {text : List Char}
    (h : depthBehind separator depth text = some behind) (done : List (List Char)) (current rest : List Char) :
    splitOutsideBracketsOnto [separator] done current depth (text ++ rest) =
      splitOutsideBracketsOnto [separator] done (text.reverse ++ current) behind rest := by
  induction text generalizing depth current with
  | nil =>
    obtain rfl := Option.some.inj h
    rfl
  | cons c text ih =>
    simp only [depthBehind] at h
    split at h
    · exact absurd h (by simp)
    · next hpass =>
      have hpass' : ([separator] == [c] && nestingAfter depth c == 0) = false := by
        rw [Bool.and_eq_false_iff]
        by_cases heq : separator = c
        · exact .inr (by simpa using fun hzero => hpass ⟨heq, hzero⟩)
        · exact .inl (by simpa using heq)
      simp only [List.cons_append, splitOutsideBracketsOnto, hpass', Bool.false_eq_true, if_false]
      rw [ih h, List.reverse_cons, List.append_assoc]
      rfl

/-- Parts that hold no separator outside brackets are what their list is split into. -/
theorem splitOutsideBrackets_intercalate {separator : Char} (hseparator : nestingAfter 0 separator = 0)
    {parts : List (List Char)} (hne : parts ≠ []) (h : ∀ part ∈ parts, depthBehind separator 0 part = some 0) :
    splitOutsideBrackets [separator] ([separator].intercalate parts) = parts := by
  have hsplit : ∀ (done : List (List Char)) (parts : List (List Char)), parts ≠ [] →
      (∀ part ∈ parts, depthBehind separator 0 part = some 0) →
      splitOutsideBracketsOnto [separator] done [] 0 ([separator].intercalate parts) = done.reverse ++ parts := by
    intro done parts
    induction parts generalizing done with
    | nil => exact fun hne => absurd rfl hne
    | cons part parts ih =>
      intro _ h
      rw [List.forall_mem_cons] at h
      cases parts with
      | nil =>
        rw [List.intercalate_singleton, ← List.append_nil part, splitOutsideBracketsOnto_append h.1]
        simp [splitOutsideBracketsOnto]
      | cons next parts =>
        rw [List.intercalate_cons_cons, List.append_assoc, splitOutsideBracketsOnto_append h.1, List.singleton_append,
          splitOutsideBracketsOnto]
        simp only [hseparator, beq_self_eq_true, Bool.and_self, if_true]
        rw [ih _ (by simp) h.2]
        simp
  exact hsplit [] parts hne h

/-- Parts with a comma and a space between neighbours. -/
def commaList (parts : List (List Char)) : List Char :=
  [',', ' '].intercalate parts

theorem commaList_cons_cons (part next : List Char) (parts : List (List Char)) :
    commaList (part :: next :: parts) = part ++ ',' :: ' ' :: commaList (next :: parts) := by
  rw [commaList, List.intercalate_cons_cons, List.append_assoc]
  rfl

/-- The space behind a comma belongs to the next part. -/
theorem commaList_cons (part : List Char) (parts : List (List Char)) :
    commaList (part :: parts) = [','].intercalate (part :: parts.map (' ' :: ·)) := by
  induction parts generalizing part with
  | nil => rw [commaList, List.map_nil, List.intercalate_singleton, List.intercalate_singleton]
  | cons next parts ih =>
    rw [commaList_cons_cons, ih, List.map_cons, List.intercalate_cons_cons, List.append_assoc]
    cases parts with
    | nil => simp
    | cons other parts => simp [List.intercalate_cons_cons]

/-- What holds of each part and is kept by joining two texts with a comma holds of the list. -/
theorem commaList_induction {p : List Char → Prop} {parts : List (List Char)} (hne : parts ≠ [])
    (hpart : ∀ part ∈ parts, p part) (hjoin : ∀ part rest, p part → p rest → p (part ++ ',' :: ' ' :: rest)) :
    p (commaList parts) := by
  induction parts with
  | nil => exact absurd rfl hne
  | cons part parts ih =>
    rw [List.forall_mem_cons] at hpart
    cases parts with
    | nil => simpa [commaList, List.intercalate_singleton] using hpart.1
    | cons next parts =>
      rw [commaList_cons_cons]
      exact hjoin _ _ hpart.1 (ih (List.cons_ne_nil _ _) hpart.2)

theorem forall_mem_commaList {p : Char → Prop} {parts : List (List Char)} (hcomma : p ',') (hspace : p ' ')
    (h : ∀ part ∈ parts, ∀ c ∈ part, p c) : ∀ c ∈ commaList parts, p c := by
  by_cases hne : parts = []
  · rw [hne]
    exact fun c hc => absurd hc List.not_mem_nil
  · apply commaList_induction hne h
    intro part rest hpart hrest
    rw [List.forall_mem_append, List.forall_mem_cons, List.forall_mem_cons]
    exact ⟨hpart, hcomma, hspace, hrest⟩

/-- The space in front of the list belongs to the first part. -/
theorem space_commaList {parts : List (List Char)} (hne : parts ≠ []) :
    ' ' :: commaList parts = [','].intercalate (parts.map (' ' :: ·)) := by
  obtain ⟨part, parts, rfl⟩ := List.exists_cons_of_ne_nil hne
  rw [commaList_cons, List.map_cons]
  cases parts with
  | nil => rw [List.map_nil, List.intercalate_singleton, List.intercalate_singleton]
  | cons next parts => simp [List.intercalate_cons_cons]

theorem splitOutsideBrackets_commaList {part : List Char} {parts : List (List Char)}
    (h : ∀ other ∈ part :: parts, depthBehind ',' 0 other = some 0) :
    splitOutsideBrackets [','] (commaList (part :: parts)) = part :: parts.map (' ' :: ·) := by
  rw [List.forall_mem_cons] at h
  rw [commaList_cons, splitOutsideBrackets_intercalate (by decide) (List.cons_ne_nil _ _)]
  refine List.forall_mem_cons.2 ⟨h.1, fun spaced hspaced => ?_⟩
  obtain ⟨other, hother, rfl⟩ := List.mem_map.1 hspaced
  rw [depthBehind]
  exact h.2 other hother

theorem depthBehind_of_plain {separator : Char} {text : List Char}
    (h : ∀ c ∈ text, c ≠ separator ∧ ∀ depth, nestingAfter depth c = depth) (depth : Nat) :
    depthBehind separator depth text = some depth := by
  induction text with
  | nil => rfl
  | cons c text ih =>
    rw [List.forall_mem_cons] at h
    rw [depthBehind, h.1.2, if_neg fun hc => h.1.1 hc.1.symm, ih h.2]

/-- The openers of all kinds in a text. -/
def openerCount (text : List Char) : Nat :=
  text.count '(' + text.count '[' + text.count '\x7b'

/-- The closers of all kinds in a text. -/
def closerCount (text : List Char) : Nat :=
  text.count ')' + text.count ']' + text.count '\x7d'

theorem nestingAfter_eq (depth : Nat) (c : Char) :
    nestingAfter depth c = depth + openerCount [c] - closerCount [c] := by
  unfold nestingAfter openerCount closerCount
  simp only [List.count_singleton]
  split
  · next h =>
    rcases (by simpa using h : (c = '(' ∨ c = '[') ∨ c = '\x7b') with (rfl | rfl) | rfl <;> rfl
  · next hopen =>
    split
    · next h =>
      rcases (by simpa using h : (c = ')' ∨ c = ']') ∨ c = '\x7d') with (rfl | rfl) | rfl <;> rfl
    · next hclose =>
      simp only [Bool.or_eq_true, not_or, Bool.not_eq_true] at hopen hclose
      simp only [hopen.1.1, hopen.1.2, hopen.2, hclose.1.1, hclose.1.2, hclose.2]
      rfl

theorem openerCount_cons (c : Char) (text : List Char) :
    openerCount (c :: text) = openerCount [c] + openerCount text := by
  simp only [openerCount, List.count_cons, List.count_nil]
  omega

theorem closerCount_cons (c : Char) (text : List Char) :
    closerCount (c :: text) = closerCount [c] + closerCount text := by
  simp only [closerCount, List.count_cons, List.count_nil]
  omega

theorem depthBehind_of_front_le {separator : Char} {text : List Char} {depth : Nat}
    (h : ∀ front, front <+: text → closerCount front ≤ depth + openerCount front) :
    depthBehind separator (depth + 1) text = some (depth + openerCount text - closerCount text + 1) := by
  induction text generalizing depth with
  | nil => rfl
  | cons c text ih =>
    have hhead := h [c] (List.cons_prefix_cons.2 ⟨rfl, List.nil_prefix⟩)
    have hdepth : nestingAfter (depth + 1) c = depth + openerCount [c] - closerCount [c] + 1 := by
      rw [nestingAfter_eq]
      omega
    rw [depthBehind, hdepth, if_neg (by omega), ih, openerCount_cons c text, closerCount_cons c text]
    · congr 2
      omega
    · intro front hfront
      have := h (c :: front) (List.cons_prefix_cons.2 ⟨rfl, hfront⟩)
      rw [openerCount_cons c front, closerCount_cons c front] at this
      omega

/-- A text in brackets of any kind that is balanced in each kind is passed over as a whole. -/
theorem depthBehind_bracketed {opener closer : Char} (hopen : ∀ depth, nestingAfter depth opener = depth + 1)
    (hclose : ∀ depth, nestingAfter (depth + 1) closer = depth) (hcloser : closer ≠ ',') {text : List Char}
    (hround : Balanced '(' ')' text) (hsquare : Balanced '[' ']' text) (hcurly : Balanced '\x7b' '\x7d' text)
    (depth : Nat) : depthBehind ',' depth (opener :: (text ++ [closer])) = some depth := by
  have hfront : ∀ front, front <+: text → closerCount front ≤ depth + openerCount front := by
    intro front h
    have := hround.front_le front h
    have := hsquare.front_le front h
    have := hcurly.front_le front h
    unfold closerCount openerCount
    omega
  have htotal : depth + openerCount text - closerCount text = depth := by
    unfold closerCount openerCount
    rw [hround.total, hsquare.total, hcurly.total]
    omega
  rw [depthBehind, hopen, if_neg (by simp), depthBehind_append, depthBehind_of_front_le hfront, htotal,
    Option.bind_some, depthBehind, hclose, if_neg fun h => hcloser h.1.symm, depthBehind]

end ContractMigration.Solidity
