import ContractMigration.Proofs.Solidity.Balance
import ContractMigration.Proofs.Text.Words
import ContractMigration.Solidity.Member

/-!
# Cutting a written body

A member is written as a header, laid out in any way, and a semicolon or a block. When no semicolon and no opening
brace of the header stands outside parentheses and the braces of the block are balanced, the walk over the body ends
one member where it was written to end. So a body that is written as a list of members is cut into those members.
-/

namespace ContractMigration.Solidity

open Text

/-! ### Enclosed texts -/

/-- How many parentheses are open behind a text that begins with some open. There is no answer when the text closes
one that is not open, or when a brace is opened or a statement ended outside all parentheses. -/
def parensBehind : (parens : Nat) → List Char → Option Nat
  | parens, [] => some parens
  | parens, c :: rest =>
    if c == '(' then parensBehind (parens + 1) rest
    else if c == ')' then if parens == 0 then none else parensBehind (parens - 1) rest
    else if (c == '\x7b' || c == ';') && parens == 0 then none
    else parensBehind parens rest

/-- The parentheses are balanced, and opening braces and semicolons stand inside parentheses. -/
def Enclosed (text : List Char) : Prop :=
  parensBehind 0 text = some 0

instance (text : List Char) : Decidable (Enclosed text) :=
  inferInstanceAs (Decidable (parensBehind 0 text = some 0))

theorem forall_split_cons {p : List Char → Char → Prop} {c : Char} {text : List Char} :
    (∀ front d rest, c :: text = front ++ d :: rest → p front d) ↔
      p [] c ∧ ∀ front d rest, text = front ++ d :: rest → p (c :: front) d := by
  refine ⟨fun h => ⟨h [] c text rfl, fun front d rest htext => h (c :: front) d rest (congrArg _ htext)⟩, ?_⟩
  rintro ⟨hnil, hcons⟩ front d rest htext
  cases front with
  | nil =>
    obtain ⟨rfl, rfl⟩ := List.cons.inj htext
    exact hnil
  | cons e front =>
    obtain ⟨rfl, rfl⟩ := List.cons.inj htext
    exact hcons front d rest rfl

/-- A text leads from some open parentheses to others exactly when it never closes one that is not open, opens a brace
or ends a statement only while one is open, and the totals add up. -/
theorem parensBehind_eq_some_iff {parens behind : Nat} {text : List Char} :
    parensBehind parens text = some behind ↔
      (∀ front, front <+: text → front.count ')' ≤ parens + front.count '(') ∧
      (∀ front c rest, text = front ++ c :: rest → c ∈ ['\x7b', ';'] → front.count ')' < parens + front.count '(') ∧
      text.count ')' + behind = parens + text.count '(' := by
  induction text generalizing parens with
  | nil =>
    rw [parensBehind, Option.some.injEq]
    constructor
    · rintro rfl
      refine ⟨fun front hfront => ?_, fun front c rest htext => ?_, Nat.zero_add _⟩
      · rw [List.prefix_nil.1 hfront]
        exact Nat.zero_le _
      · exact absurd htext.symm (by simp)
    · rintro ⟨-, -, htotal⟩
      simpa using htotal.symm
  | cons c text ih =>
    rw [forall_front_cons, forall_split_cons, parensBehind]
    by_cases hopen : c = '('
    · subst hopen
      simp only [List.count_cons_self, List.count_cons_of_ne (by decide : '(' ≠ ')')]
      rw [if_pos (by decide), ih]
      simp [Nat.add_assoc, Nat.add_comm 1]
    rw [if_neg (by simpa using hopen)]
    by_cases hclose : c = ')'
    · subst hclose
      simp only [List.count_cons_self, List.count_cons_of_ne hopen]
      rw [if_pos (by decide)]
      cases parens with
      | zero =>
        refine iff_of_false (by simp) fun h => ?_
        have hone := h.1.2 [] List.nil_prefix
        exact absurd hone (by decide)
      | succ parens =>
        have htotal : text.count ')' + 1 + behind = parens + 1 + text.count '(' ↔
            text.count ')' + behind = parens + text.count '(' := by omega
        rw [if_neg (by simp), Nat.add_sub_cancel, ih, htotal]
        simp [Nat.add_right_comm parens 1]
    · simp only [List.count_cons_of_ne hopen, List.count_cons_of_ne hclose]
      rw [if_neg (by simpa using hclose)]
      by_cases hfree : c ∈ ['\x7b', ';'] ∧ parens = 0
      · rw [if_pos (by simpa using hfree)]
        refine iff_of_false (by simp) fun h => ?_
        have hparens := h.2.1.1 hfree.1
        exact absurd hfree.2 (by simpa using Nat.ne_of_gt hparens)
      · have hinside : c ∈ ['\x7b', ';'] → 0 < parens := fun hc => Nat.pos_of_ne_zero fun h => hfree ⟨hc, h⟩
        rw [if_neg (by simpa using hfree), ih]
        simpa using fun _ _ _ => hinside

theorem enclosed_iff {text : List Char} :
    Enclosed text ↔ Balanced '(' ')' text ∧
      ∀ front c rest, text = front ++ c :: rest → c ∈ ['\x7b', ';'] → front.count ')' < front.count '(' := by
  rw [Enclosed, parensBehind_eq_some_iff]
  simp only [Nat.zero_add, Nat.add_zero]
  constructor
  · rintro ⟨hfront, hinside, htotal⟩
    exact ⟨⟨hfront, htotal⟩, hinside⟩
  · rintro ⟨hround, hinside⟩
    exact ⟨hround.front_le, hinside, hround.total⟩

theorem parensBehind_append (parens : Nat) (left right : List Char) :
    parensBehind parens (left ++ right) = (parensBehind parens left).bind fun behind => parensBehind behind right := by
  induction left generalizing parens with
  | nil => rfl
  | cons c left ih =>
    simp only [List.cons_append, parensBehind]
    split
    · exact ih _
    · split
      · split
        · rfl
        · exact ih _
      · split
        · rfl
        · exact ih _

/-- More open parentheses do no harm. -/
theorem parensBehind_add {parens behind : Nat} {text : List Char} (h : parensBehind parens text = some behind)
    (more : Nat) : parensBehind (parens + more) text = some (behind + more) := by
  induction text generalizing parens with
  | nil =>
    obtain rfl := Option.some.inj h
    rfl
  | cons c text ih =>
    simp only [parensBehind] at h ⊢
    split at h
    · next hopen =>
      rw [if_pos hopen, Nat.add_right_comm]
      exact ih h
    · next hopen =>
      rw [if_neg hopen]
      split at h
      · next hclose =>
        rw [if_pos hclose]
        split at h
        · exact absurd h (by simp)
        · next hparens =>
          rw [beq_iff_eq] at hparens
          have hsub : parens + more - 1 = parens - 1 + more := by omega
          rw [if_neg (by simp only [beq_iff_eq]; omega), hsub]
          exact ih h
      · next hclose =>
        rw [if_neg hclose]
        split at h
        · exact absurd h (by simp)
        · next hfree =>
          have hfree' : ¬((c == '\x7b' || c == ';') && parens + more == 0) = true := by
            simp only [Bool.and_eq_true, beq_iff_eq] at hfree ⊢
            exact fun hboth => hfree ⟨hboth.1, by omega⟩
          rw [if_neg hfree']
          exact ih h

theorem parensBehind_of_plain {text : List Char} (h : ∀ c ∈ text, c ∉ ['(', ')', '\x7b', ';']) (parens : Nat) :
    parensBehind parens text = some parens := by
  induction text with
  | nil => rfl
  | cons c text ih =>
    rw [List.forall_mem_cons] at h
    have hc := h.1
    simp only [List.mem_cons, List.not_mem_nil, or_false, not_or] at hc
    rw [parensBehind, if_neg (by simpa using hc.1), if_neg (by simpa using hc.2.1),
      if_neg (by simp [hc.2.2.1, hc.2.2.2]), ih h.2]

theorem not_plain_of_isBlank {c : Char} (h : isBlank c = true) : c ∉ ['(', ')', '\x7b', ';'] := by
  intro hmem
  simp only [List.mem_cons, List.not_mem_nil, or_false] at hmem
  rcases hmem with rfl | rfl | rfl | rfl <;> exact absurd h (by decide)

/-- Blanks do not matter. -/
theorem parensBehind_filter (parens : Nat) (text : List Char) :
    parensBehind parens (text.filter (!isBlank ·)) = parensBehind parens text := by
  induction text generalizing parens with
  | nil => rfl
  | cons c text ih =>
    by_cases hc : isBlank c = true
    · have hone := parensBehind_of_plain (List.forall_mem_singleton.2 (not_plain_of_isBlank hc)) parens
      have happend := parensBehind_append parens [c] text
      rw [hone, Option.bind_some, List.singleton_append] at happend
      rw [List.filter_cons_of_neg (by simp [hc]), ih, happend]
    · rw [List.filter_cons_of_pos (by simp [hc])]
      simp only [parensBehind, ih]

namespace Enclosed

theorem append {left right : List Char} (hleft : Enclosed left) (hright : Enclosed right) :
    Enclosed (left ++ right) := by
  rw [Enclosed, parensBehind_append, hleft, Option.bind_some, hright]

theorem parenthesise {text : List Char} (h : Enclosed text) : Enclosed ('(' :: (text ++ [')'])) := by
  rw [Enclosed, parensBehind, if_pos (by decide), parensBehind_append, parensBehind_add h 1]
  rfl

theorem of_plain {text : List Char} (h : ∀ c ∈ text, c ∉ ['(', ')', '\x7b', ';']) : Enclosed text :=
  parensBehind_of_plain h 0

theorem of_balanced {text : List Char} (h : Balanced '(' ')' text) (hfree : ∀ c ∈ text, c ≠ '\x7b' ∧ c ≠ ';') :
    Enclosed text := by
  refine enclosed_iff.2 ⟨h, fun front c rest htext hc => ?_⟩
  have hmem : c ∈ text := by simp [htext]
  exact absurd hc (by simp [hfree c hmem])

theorem of_words_eq {left right : List Char} (hwords : words left = words right) (h : Enclosed left) :
    Enclosed right := by
  rw [Enclosed, ← parensBehind_filter, ← flatten_words, ← hwords, flatten_words, parensBehind_filter]
  exact h

end Enclosed

/-- The parenthesis behind an enclosed text closes the one in front of it. -/
theorem Enclosed.splitAtClosing {text : List Char} (h : Enclosed text) (rest : List Char) :
    Solidity.splitAtClosing '(' ')' (text ++ ')' :: rest) = some (text, rest) :=
  (enclosed_iff.1 h).1.splitAtClosing (by decide) rest

/-! ### The walk -/

namespace MemberWalk

/-- An enclosed text is read onto the pending characters. -/
theorem foldl_step_enclosed {parens behind : Nat} {text : List Char} (h : parensBehind parens text = some behind)
    (pending : List Char) (done : List Member) :
    text.foldl step ⟨0, parens, pending, done⟩ = ⟨0, behind, text.reverse ++ pending, done⟩ := by
  induction text generalizing parens pending with
  | nil =>
    obtain rfl := Option.some.inj h
    rfl
  | cons c text ih =>
    have hreverse : (c :: text).reverse ++ pending = text.reverse ++ c :: pending := by simp
    rw [List.foldl_cons, hreverse]
    simp only [parensBehind] at h
    simp only [step, topStep, beq_self_eq_true, if_true]
    split at h
    · next hopen => rw [if_pos hopen, ih h]
    · next hopen =>
      rw [if_neg hopen]
      split at h
      · next hclose =>
        rw [if_pos hclose]
        split at h
        · exact absurd h (by simp)
        · rw [ih h]
      · next hclose =>
        rw [if_neg hclose]
        split at h
        · exact absurd h (by simp)
        · next hfree =>
          rw [Bool.and_eq_true, Bool.or_eq_true, not_and, or_imp] at hfree
          rw [if_neg fun hbrace => hfree.1 (Bool.and_eq_true_iff.1 hbrace).1 (Bool.and_eq_true_iff.1 hbrace).2,
            if_neg fun hend => hfree.2 (Bool.and_eq_true_iff.1 hend).1 (Bool.and_eq_true_iff.1 hend).2, ih h]

/-- Inside a block only the depth changes. -/
theorem foldl_step_block {depth : Nat} {content : List Char}
    (h : ∀ front, front <+: content → front.count '\x7d' ≤ depth + front.count '\x7b') (parens : Nat)
    (pending : List Char) (done : List Member) :
    content.foldl step ⟨depth + 1, parens, pending, done⟩ =
      ⟨depth + content.count '\x7b' - content.count '\x7d' + 1, parens, pending, done⟩ := by
  induction content generalizing depth with
  | nil => rfl
  | cons c content ih =>
    have hfront : ∀ front, front <+: content → (c :: front).count '\x7d' ≤ depth + (c :: front).count '\x7b' :=
      fun front hfront => h (c :: front) (List.cons_prefix_cons.2 ⟨rfl, hfront⟩)
    rw [List.foldl_cons, step, if_neg (by simp), blockStep]
    by_cases hopen : c = '\x7b'
    · subst hopen
      simp only [List.count_cons_self, List.count_cons_of_ne (by decide : '\x7b' ≠ '\x7d')] at hfront ⊢
      rw [if_pos (by decide), ih fun front h => by have := hfront front h; omega]
      congr 1
      omega
    · rw [if_neg (by simpa using hopen)]
      by_cases hclose : c = '\x7d'
      · subst hclose
        simp only [List.count_cons_self, List.count_cons_of_ne hopen] at hfront ⊢
        have hdepth := hfront [] List.nil_prefix
        rw [List.count_nil, List.count_nil] at hdepth
        obtain ⟨depth, rfl⟩ : ∃ less, depth = less + 1 := ⟨depth - 1, by omega⟩
        rw [if_pos (by decide)]
        simp only [Nat.add_sub_cancel]
        rw [ih fun front h => by have := hfront front h; omega]
        congr 1
        omega
      · simp only [List.count_cons_of_ne hopen, List.count_cons_of_ne hclose] at hfront ⊢
        rw [if_neg (by simpa using hclose), ih hfront]

end MemberWalk

/-! ### Written members -/

/-- How a member that is written ends. -/
inductive Closing where
  | semicolon
  | block (content : List Char)
deriving DecidableEq, Repr

namespace Closing

def text : Closing → List Char
  | semicolon => [';']
  | block content => '\x7b' :: (content ++ ['\x7d'])

def ending : Closing → Ending
  | semicolon => .statement
  | block _ => .block

/-- The braces of a block are balanced. -/
def IsBalanced : Closing → Prop
  | semicolon => True
  | block content => Balanced '\x7b' '\x7d' content

instance : (closing : Closing) → Decidable closing.IsBalanced
  | semicolon => isTrue trivial
  | block content => inferInstanceAs (Decidable (Balanced '\x7b' '\x7d' content))

end Closing

/-- A member as it stands in a body: its header, in any layout, and how it ends. -/
structure WrittenMember where
  header : List Char
  closing : Closing
deriving DecidableEq, Repr

namespace WrittenMember

def text (written : WrittenMember) : List Char :=
  written.header ++ written.closing.text

def member (written : WrittenMember) : Member :=
  ⟨collapse written.header, written.closing.ending⟩

structure WellFormed (written : WrittenMember) : Prop where
  enclosed : Enclosed written.header
  balanced : written.closing.IsBalanced
  hasWords : words written.header ≠ []

theorem foldl_step {written : WrittenMember} (h : written.WellFormed) (done : List Member) :
    written.text.foldl MemberWalk.step ⟨0, 0, [], done⟩ = ⟨0, 0, [], written.member :: done⟩ := by
  obtain ⟨header, closing⟩ := written
  have hheader := MemberWalk.foldl_step_enclosed h.enclosed [] done
  have htext : (MemberWalk.mk 0 0 header.reverse done).text = collapse header := by
    rw [MemberWalk.text, List.reverse_reverse]
  rw [List.append_nil] at hheader
  rw [text, List.foldl_append, hheader]
  cases closing with
  | semicolon =>
    have hne : collapse header ≠ [] := collapse_ne_nil h.hasWords
    have hend : (MemberWalk.mk 0 0 header.reverse done).endMember .statement =
        ⟨collapse header, .statement⟩ :: done := by
      rw [MemberWalk.endMember, htext]
      exact if_neg fun hempty => hne hempty.2
    show MemberWalk.mk 0 0 [] ((MemberWalk.mk 0 0 header.reverse done).endMember .statement) = _
    rw [hend]
    rfl
  | block content =>
    have hbalanced : Balanced '\x7b' '\x7d' content := h.balanced
    have hfront : ∀ front, front <+: content → front.count '\x7d' ≤ 0 + front.count '\x7b' := by
      intro front hfront
      rw [Nat.zero_add]
      exact hbalanced.front_le front hfront
    have hend : (MemberWalk.mk 0 0 header.reverse done).endMember .block = ⟨collapse header, .block⟩ :: done := by
      rw [MemberWalk.endMember, htext]
      exact if_neg fun hempty => absurd hempty.1 (by decide)
    rw [Closing.text, List.foldl_cons, List.foldl_append]
    show ['\x7d'].foldl MemberWalk.step (content.foldl MemberWalk.step
      (MemberWalk.mk 1 0 [] ((MemberWalk.mk 0 0 header.reverse done).endMember .block))) = _
    rw [hend, MemberWalk.foldl_step_block hfront, hbalanced.total, Nat.zero_add, Nat.sub_self]
    rfl

/-- A body that is written as a list of members is cut into them. What follows the last one is no member. -/
theorem members_flatMap {body : List WrittenMember} (h : ∀ written ∈ body, written.WellFormed) {trailing : List Char}
    (htrailing : ∀ c ∈ trailing, isBlank c = true) : members (body.flatMap text ++ trailing) = body.map member := by
  have hfold : ∀ done, (body.flatMap text).foldl MemberWalk.step ⟨0, 0, [], done⟩ =
      ⟨0, 0, [], (body.map member).reverse ++ done⟩ := by
    induction body with
    | nil => exact fun done => rfl
    | cons written body ih =>
      intro done
      rw [List.forall_mem_cons] at h
      rw [List.flatMap_cons, List.foldl_append, foldl_step h.1, ih h.2, List.map_cons, List.reverse_cons,
        List.append_assoc]
      rfl
  have hplain : ∀ c ∈ trailing, c ∉ ['(', ')', '\x7b', ';'] := fun c hc => not_plain_of_isBlank (htrailing c hc)
  have hwalk := MemberWalk.foldl_step_enclosed (parensBehind_of_plain hplain 0) [] (body.map member).reverse
  have hbody := hfold []
  rw [List.append_nil] at hbody
  rw [members, List.foldl_append, hbody, hwalk, List.reverse_reverse]

end WrittenMember

/-- A tidy and enclosed text with a semicolon behind it is one statement. -/
theorem members_statement {text : List Char} (htidy : IsTidy text) (henclosed : Enclosed text) :
    members (text ++ [';']) = [⟨text, .statement⟩] := by
  have hwritten : ∀ written ∈ [WrittenMember.mk text .semicolon], written.WellFormed :=
    List.forall_mem_singleton.2 ⟨henclosed, trivial, htidy.words_ne_nil⟩
  have hnone : ∀ c ∈ ([] : List Char), isBlank c = true := fun c hc => absurd hc List.not_mem_nil
  have hmembers := WrittenMember.members_flatMap hwritten hnone
  rw [List.flatMap_singleton, List.append_nil, List.map_singleton, WrittenMember.member, htidy.collapse] at hmembers
  exact hmembers

end ContractMigration.Solidity
