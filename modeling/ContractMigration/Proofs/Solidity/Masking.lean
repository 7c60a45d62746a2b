import ContractMigration.Solidity.Lexeme
import Mathlib.Data.List.TakeWhile

/-!
# Masking a text that goes on

The lexeme that a text begins with is settled by the text, or it runs to the end of the text and goes on with
whatever follows, or it is a slash that may still turn out to begin a comment. Hence a masked text is a beginning of
every masked continuation, up to that one slash (`exists_common_front`). Code is masked to itself whatever follows it
(`mask_code_append`), and a text behind which a character is code is masked on its own (`mask_append_code`).
-/

namespace ContractMigration.Solidity

namespace Lexeme

/-! ### The ends of comments and literals -/

theorem splitBlockEnd_step (behind : List Char) {c d : Char} (h : ¬ (c = '*' ∧ d = '/')) (rest : List Char) :
    splitBlockEnd behind (c :: d :: rest) = splitBlockEnd (c :: behind) (d :: rest) := by
  rw [splitBlockEnd]
  intro tail hc hrest
  exact h ⟨hc, (List.cons.inj hrest).1⟩

theorem splitBlockEnd_single (behind : List Char) (c : Char) :
    splitBlockEnd behind [c] = ((c :: behind).reverse, []) := by
  rw [splitBlockEnd]
  · rfl
  · intro tail _ hrest
    exact absurd hrest (by simp)

theorem prefix_splitBlockEnd (behind text : List Char) : behind.reverse <+: (splitBlockEnd behind text).1 := by
  fun_induction splitBlockEnd behind text with
  | case1 behind => exact List.prefix_rfl
  | case2 behind rest => exact ⟨['*', '/'], by simp⟩
  | case3 behind c rest _ ih => exact (by simp : behind.reverse <+: (c :: behind).reverse).trans ih

/-- The end of a block comment is found, or the comment goes on with the next character. -/
theorem splitBlockEnd_settled_or_open (behind text : List Char) :
    (∀ more, splitBlockEnd behind (text ++ more) =
      ((splitBlockEnd behind text).1, (splitBlockEnd behind text).2 ++ more)) ∨
    ((splitBlockEnd behind text).2 = [] ∧
      ∀ more, (splitBlockEnd behind text).1 ++ more.take 1 <+: (splitBlockEnd behind (text ++ more)).1) := by
  match text with
  | [] =>
    refine .inr ⟨rfl, fun more => ?_⟩
    match more with
    | [] => simp [splitBlockEnd]
    | [m] => simp [splitBlockEnd, splitBlockEnd_single]
    | m :: n :: more =>
      by_cases hclose : m = '*' ∧ n = '/'
      · obtain ⟨rfl, rfl⟩ := hclose
        exact ⟨['/'], by simp [splitBlockEnd]⟩
      · rw [List.nil_append, splitBlockEnd_step behind hclose]
        simpa [splitBlockEnd] using prefix_splitBlockEnd (m :: behind) (n :: more)
  | [c] =>
    refine .inr ⟨by rw [splitBlockEnd_single], fun more => ?_⟩
    rw [splitBlockEnd_single]
    match more with
    | [] => simp [splitBlockEnd_single]
    | m :: more =>
      by_cases hclose : c = '*' ∧ m = '/'
      · obtain ⟨rfl, rfl⟩ := hclose
        simp [splitBlockEnd]
      · rw [List.cons_append, List.nil_append, splitBlockEnd_step behind hclose]
        match more with
        | [] => simp [splitBlockEnd_single]
        | n :: more =>
          by_cases hclose' : m = '*' ∧ n = '/'
          · obtain ⟨rfl, rfl⟩ := hclose'
            exact ⟨['/'], by simp [splitBlockEnd]⟩
          · rw [splitBlockEnd_step _ hclose']
            simpa using prefix_splitBlockEnd (m :: c :: behind) (n :: more)
  | c :: d :: rest =>
    by_cases hclose : c = '*' ∧ d = '/'
    · obtain ⟨rfl, rfl⟩ := hclose
      exact .inl fun more => by simp [splitBlockEnd]
    · have ih := splitBlockEnd_settled_or_open (c :: behind) (d :: rest)
      simpa only [List.cons_append, splitBlockEnd_step behind hclose] using ih
termination_by text.length

/-! The equations of a literal, one for each kind of character. -/

theorem splitLiteral_escape (quote : Char) (behind : List Char) (c : Char) (rest : List Char) :
    splitLiteral quote behind ('\\' :: c :: rest) = splitLiteral quote (c :: '\\' :: behind) rest := by
  rw [splitLiteral]

theorem splitLiteral_step {quote c : Char} (h : c ≠ '\\') (behind rest : List Char) :
    splitLiteral quote behind (c :: rest) =
      if c == quote then (behind.reverse, true, rest)
      else if c == '\n' then (behind.reverse, false, c :: rest)
      else splitLiteral quote (c :: behind) rest := by
  rw [splitLiteral]
  · intro hc _
    exact h hc
  · intro d tail hc _
    exact h hc

theorem prefix_splitLiteral (quote : Char) (behind text : List Char) :
    behind.reverse <+: (splitLiteral quote behind text).1 := by
  fun_induction splitLiteral quote behind text with
  | case1 | case4 | case5 => exact List.prefix_rfl
  | case2 behind => simp
  | case3 behind c rest ih => exact (by simp : behind.reverse <+: (c :: '\\' :: behind).reverse).trans ih
  | case6 behind c rest _ _ _ _ ih => exact (by simp : behind.reverse <+: (c :: behind).reverse).trans ih

/-- The end of a literal is found, or the literal goes on, and any character but a quote or a line end belongs to its
content. -/
theorem splitLiteral_settled_or_open (quote : Char) (behind text : List Char) :
    (∀ more, splitLiteral quote behind (text ++ more) =
      ((splitLiteral quote behind text).1, (splitLiteral quote behind text).2.1,
        (splitLiteral quote behind text).2.2 ++ more)) ∨
    ((splitLiteral quote behind text).2 = (false, []) ∧
      (∀ more, (splitLiteral quote behind text).1 <+: (splitLiteral quote behind (text ++ more)).1) ∧
      ∀ m more, m ≠ quote → m ≠ '\n' →
        (splitLiteral quote behind text).1 ++ [m] <+: (splitLiteral quote behind (text ++ m :: more)).1) := by
  fun_induction splitLiteral quote behind text with
  | case1 behind =>
    refine .inr ⟨rfl, fun more => prefix_splitLiteral quote behind more, fun m more hquote hline => ?_⟩
    rw [List.nil_append]
    by_cases hescape : m = '\\'
    · subst hescape
      cases more with
      | nil => simp [splitLiteral]
      | cons n more =>
        rw [splitLiteral_escape]
        exact (by simp : behind.reverse ++ ['\\'] <+: (n :: '\\' :: behind).reverse).trans
          (prefix_splitLiteral quote _ more)
    · rw [splitLiteral_step hescape, if_neg (by simpa using hquote), if_neg (by simpa using hline)]
      simpa using prefix_splitLiteral quote (m :: behind) more
  | case2 behind =>
    refine .inr ⟨rfl, fun more => ?_, fun m more _ _ => ?_⟩
    · cases more with
      | nil => simp [splitLiteral]
      | cons n more =>
        rw [List.cons_append, List.nil_append, splitLiteral_escape]
        exact (by simp : ('\\' :: behind).reverse <+: (n :: '\\' :: behind).reverse).trans
          (prefix_splitLiteral quote _ more)
    · rw [List.cons_append, List.nil_append, splitLiteral_escape]
      simpa using prefix_splitLiteral quote (m :: '\\' :: behind) more
  | case3 behind c rest ih => simpa only [List.cons_append, splitLiteral_escape] using ih
  | case4 behind c rest hone hescape hquote =>
    have hc : c ≠ '\\' := by
      rintro rfl
      cases rest with
      | nil => exact hone rfl rfl
      | cons d rest => exact hescape d rest rfl rfl
    exact .inl fun more => by rw [List.cons_append, splitLiteral_step hc, if_pos hquote]
  | case5 behind c rest hone hescape hquote hline =>
    have hc : c ≠ '\\' := by
      rintro rfl
      exact absurd hline (by decide)
    exact .inl fun more => by rw [List.cons_append, splitLiteral_step hc, if_neg hquote, if_pos hline]
  | case6 behind c rest hone hescape hquote hline ih =>
    have hc : c ≠ '\\' := by
      rintro rfl
      cases rest with
      | nil => exact hone rfl rfl
      | cons d rest => exact hescape d rest rfl rfl
    simpa only [List.cons_append, splitLiteral_step hc, if_neg hquote, if_neg hline] using ih

/-! ### The lexeme at the head of a text -/

/-- The lexeme is the same whatever follows the text. -/
def Settled (c : Char) (rest : List Char) : Prop :=
  ∀ more, read c (rest ++ more) = ((read c rest).1, (read c rest).2 ++ more)

/-- The lexeme reaches to the end of the text and goes on with what follows, with whatever is neither a quote nor a
line end in any case. -/
def Open (c : Char) (rest : List Char) : Prop :=
  (read c rest).2 = [] ∧
  (∀ more, (read c rest).1.masked <+: (read c (rest ++ more)).1.masked) ∧
  ∀ m more, m ≠ '"' → m ≠ '\'' → m ≠ '\n' →
    (read c rest).1.masked ++ [' '] <+: (read c (rest ++ m :: more)).1.masked

theorem blankOut_of_ne {c : Char} (h : c ≠ '\n') : blankOut c = ' ' := by
  simp [blankOut, h]

theorem read_code {c : Char} (hslash : c ≠ '/') (hquote : c ≠ '"') (hquote' : c ≠ '\'') (rest : List Char) :
    read c rest = (code c, rest) := by
  unfold read
  split
  · exact absurd rfl hslash
  · exact absurd rfl hslash
  · rw [if_neg (by simp [hquote, hquote'])]

theorem read_literal {c : Char} (hquote : c = '"' ∨ c = '\'') (rest : List Char) :
    read c rest =
      (literal c (splitLiteral c [] rest).1 (splitLiteral c [] rest).2.1, (splitLiteral c [] rest).2.2) := by
  unfold read
  split
  · exact absurd hquote (by decide)
  · exact absurd hquote (by decide)
  · rw [if_pos (by simpa using hquote)]

theorem read_slash_code {d : Char} (hline : d ≠ '/') (hblock : d ≠ '*') (rest : List Char) :
    read '/' (d :: rest) = (code '/', d :: rest) := by
  unfold read
  split
  · next heq => exact absurd (List.cons.inj heq).1 hline
  · next heq => exact absurd (List.cons.inj heq).1 hblock
  · rfl

theorem read_lineComment (rest : List Char) :
    read '/' ('/' :: rest) =
      (comment ('/' :: '/' :: rest.takeWhile (· != '\n')), rest.dropWhile (· != '\n')) := by
  rw [read]

theorem read_blockComment (rest : List Char) :
    read '/' ('*' :: rest) =
      (comment ('/' :: '*' :: (splitBlockEnd [] rest).1), (splitBlockEnd [] rest).2) := by
  rw [read]

theorem lineComment_settled_or_open (rest : List Char) : Settled '/' ('/' :: rest) ∨ Open '/' ('/' :: rest) := by
  simp only [Settled, Open, List.cons_append, read_lineComment]
  by_cases hend : ∀ c ∈ rest, (c != '\n') = true
  · refine .inr ⟨List.dropWhile_eq_nil_iff.2 hend, fun more => ?_, fun m more _ _ hm => ?_⟩
    · rw [List.takeWhile_append_of_pos hend, List.takeWhile_eq_self_iff.2 hend]
      simp [masked]
    · rw [List.takeWhile_append_of_pos hend, List.takeWhile_eq_self_iff.2 hend, List.takeWhile_cons_of_pos (by simpa)]
      simp [masked, blankOut_of_ne hm]
  · refine .inl fun more => ?_
    simp only [List.takeWhile_append, List.dropWhile_append]
    have hlen : (rest.takeWhile (· != '\n')).length ≠ rest.length := fun hlen =>
      hend (List.takeWhile_eq_self_iff.1 ((List.takeWhile_prefix _).eq_of_length hlen))
    have hdrop : (rest.dropWhile (· != '\n')).isEmpty = false := by
      rw [List.isEmpty_eq_false_iff]
      exact fun hnil => hend (List.dropWhile_eq_nil_iff.1 hnil)
    simp [hlen, hdrop]

theorem blockComment_settled_or_open (rest : List Char) : Settled '/' ('*' :: rest) ∨ Open '/' ('*' :: rest) := by
  simp only [Settled, Open, List.cons_append, read_blockComment]
  rcases splitBlockEnd_settled_or_open [] rest with hsettled | ⟨hend, hopen⟩
  · exact .inl fun more => by rw [hsettled more]
  · refine .inr ⟨hend, fun more => ?_, fun m more _ _ hm => ?_⟩
    · have := ((List.prefix_append _ _).trans (hopen more)).map blankOut
      simpa [masked] using this
    · have := (hopen (m :: more)).map blankOut
      simpa [masked, blankOut_of_ne hm] using this

theorem literal_settled_or_open {c : Char} (hquote : c = '"' ∨ c = '\'') (rest : List Char) :
    Settled c rest ∨ Open c rest := by
  simp only [Settled, Open, read_literal hquote]
  rcases splitLiteral_settled_or_open c [] rest with hsettled | ⟨hend, hopen, hnext⟩
  · exact .inl fun more => by rw [hsettled more]
  · rw [hend]
    refine .inr ⟨rfl, fun more => ?_, fun m more hm hm' hline => ?_⟩
    · obtain ⟨content, hcontent⟩ := hopen more
      simp [masked, ← hcontent]
    · have hne : m ≠ c := by
        rcases hquote with rfl | rfl
        · exact hm
        · exact hm'
      obtain ⟨content, hcontent⟩ := hnext m more hne hline
      simp [masked, ← hcontent, blankOut_of_ne hline]

/-- Only a slash at the end of a text is neither settled nor open: it becomes a comment or stays code. -/
theorem settled_or_open (c : Char) (rest : List Char) :
    Settled c rest ∨ Open c rest ∨ (c = '/' ∧ rest = []) := by
  by_cases hslash : c = '/'
  · subst hslash
    match rest with
    | [] => exact .inr (.inr ⟨rfl, rfl⟩)
    | d :: rest =>
      by_cases hline : d = '/'
      · subst hline
        exact (lineComment_settled_or_open rest).imp_right .inl
      · by_cases hblock : d = '*'
        · subst hblock
          exact (blockComment_settled_or_open rest).imp_right .inl
        · refine .inl fun more => ?_
          rw [List.cons_append, read_slash_code hline hblock, read_slash_code hline hblock]
          rfl
  · by_cases hquote : c = '"' ∨ c = '\''
    · exact (literal_settled_or_open hquote rest).imp_right .inl
    · rw [not_or] at hquote
      exact .inl fun more => by rw [read_code hslash hquote.1 hquote.2, read_code hslash hquote.1 hquote.2]

end Lexeme

/-! ### The masked text -/

@[simp] theorem mask_nil : mask [] = [] := rfl

theorem masked_read_slash (rest : List Char) :
    ∃ c more, (Lexeme.read '/' rest).1.masked = c :: more ∧ (c = '/' ∨ c = ' ') := by
  unfold Lexeme.read
  split
  · exact ⟨' ', _, rfl, .inr rfl⟩
  · exact ⟨' ', _, rfl, .inr rfl⟩
  · exact ⟨'/', [], rfl, .inl rfl⟩

/-- A masked text begins the masked continuation, except that a slash at its very end may be blanked there. -/
theorem exists_common_front (text more : List Char) :
    ∃ front last last' rest, mask text = front ++ last ∧ mask (text ++ more) = front ++ last' ++ rest ∧
      last'.length = last.length ∧ (∀ c ∈ last ++ last', c = '/' ∨ c = ' ') ∧ last.length ≤ 1 := by
  match text with
  | [] => exact ⟨[], [], [], mask more, rfl, rfl, rfl, fun c hc => absurd hc (by simp), Nat.zero_le _⟩
  | c :: rest =>
    rw [List.cons_append, mask_cons, mask_cons]
    rcases Lexeme.settled_or_open c rest with hsettled | ⟨hend, hopen, -⟩ | ⟨rfl, rfl⟩
    · have hread := Lexeme.length_read_le c rest
      obtain ⟨front, last, last', after, hmask, hlonger, hlast⟩ := exists_common_front (Lexeme.read c rest).2 more
      refine ⟨(Lexeme.read c rest).1.masked ++ front, last, last', after, ?_, ?_, hlast⟩
      · rw [hmask, List.append_assoc]
      · rw [hsettled more, hlonger]
        simp only [List.append_assoc]
    · obtain ⟨tail, htail⟩ := hopen more
      refine ⟨(Lexeme.read c rest).1.masked, [], [], tail ++ mask (Lexeme.read c (rest ++ more)).2, ?_, ?_, rfl,
        fun c hc => absurd hc (by simp), Nat.zero_le _⟩
      · rw [hend]
        rfl
      · rw [← htail, List.append_nil, List.append_assoc]
    · obtain ⟨c, tail, htail, hc⟩ := masked_read_slash more
      refine ⟨[], ['/'], [c], tail ++ mask (Lexeme.read '/' more).2, rfl, ?_, rfl, ?_, Nat.le_refl _⟩
      · rw [List.nil_append, htail]
        rfl
      · simpa using hc
termination_by text.length

/-- A character that begins neither a comment nor a string. -/
def IsPlain (c : Char) : Prop :=
  c ≠ '/' ∧ c ≠ '"' ∧ c ≠ '\''

instance : DecidablePred IsPlain := fun c =>
  inferInstanceAs (Decidable (c ≠ '/' ∧ c ≠ '"' ∧ c ≠ '\''))

theorem mask_plain_cons {c : Char} (h : IsPlain c) (rest : List Char) : mask (c :: rest) = c :: mask rest := by
  rw [mask_cons, Lexeme.read_code h.1 h.2.1 h.2.2]
  rfl

/-- Code that can begin neither a comment nor a string is masked to itself. -/
theorem mask_code_append {code : List Char} (h : ∀ c ∈ code, IsPlain c) (rest : List Char) :
    mask (code ++ rest) = code ++ mask rest := by
  induction code with
  | nil => rfl
  | cons c code ih =>
    rw [List.forall_mem_cons] at h
    rw [List.cons_append, mask_plain_cons h.1, ih h.2, List.cons_append]

/-- A character that shows in a masked text only where it is code. -/
def ShowsCode (c : Char) : Prop :=
  IsPlain c ∧ c ≠ ' ' ∧ c ≠ '\n'

instance : DecidablePred ShowsCode := fun c =>
  inferInstanceAs (Decidable (IsPlain c ∧ c ≠ ' ' ∧ c ≠ '\n'))

/-- When a character behind a text is code, the text ends outside comments and strings, and whatever follows the
character is masked as if it stood alone. -/
theorem mask_append_code {text rest : List Char} {c : Char} (hc : ShowsCode c)
    (h : mask (text ++ c :: rest) = mask text ++ c :: mask rest) (more : List Char) :
    mask (text ++ c :: more) = mask text ++ c :: mask more := by
  match text with
  | [] => exact mask_plain_cons hc.1 more
  | d :: text =>
    rw [List.cons_append, mask_cons, mask_cons] at h
    rw [List.cons_append, mask_cons, mask_cons]
    rcases Lexeme.settled_or_open d text with hsettled | ⟨hend, -, hnext⟩ | ⟨rfl, rfl⟩
    · have hread := Lexeme.length_read_le d text
      rw [hsettled, List.append_assoc] at h
      rw [hsettled, List.append_assoc, mask_append_code hc (List.append_cancel_left h)]
    · -- an open lexeme would have swallowed the character
      have hblank := hnext c rest hc.1.2.1 hc.1.2.2 hc.2.2
      have hcode := hblank.trans (List.prefix_append _ (mask (Lexeme.read d (text ++ c :: rest)).2))
      rw [h, hend, mask_nil, List.append_nil, List.prefix_append_right_inj, List.cons_prefix_cons] at hcode
      exact absurd hcode.1.symm hc.2.1
    · have hblock : c ≠ '*' := by
        rintro rfl
        rw [List.nil_append, Lexeme.read_blockComment] at h
        exact absurd (List.cons.inj h).1 (by decide)
      rw [List.nil_append, Lexeme.read_slash_code hc.1.1 hblock, mask_plain_cons hc.1]
      rfl
termination_by text.length

theorem mask_append_brace {text : List Char} (h : mask (text ++ ['\x7d']) = mask text ++ ['\x7d']) (rest : List Char) :
    mask (text ++ '\x7d' :: rest) = mask text ++ '\x7d' :: mask rest :=
  mask_append_code (by decide) h rest

end ContractMigration.Solidity
