/-!
# Comments, strings and code

The only lexical structure that the reading of a source needs: which characters are code, which belong to a comment
and which stand between the quotes of a string. A source is cut from left to right into lexemes, the lexemes of a
source concatenate back to it (`source_lexemes`), and masking replaces what is not code by blanks. Masking keeps
the length of the text and every line end, so a place found in the masked text is the same place in the source.
-/

namespace ContractMigration.Solidity

/-- A piece of source text. A comment includes its delimiters; a literal that is not closed ends before a line end
or with the text. -/
inductive Lexeme where
  | code (c : Char)
  | comment (text : List Char)
  | literal (quote : Char) (content : List Char) (closed : Bool)
deriving DecidableEq, Repr

namespace Lexeme

/-- The characters that the lexeme was read from. -/
def source : Lexeme → List Char
  | code c => [c]
  | comment text => text
  | literal quote content closed => quote :: content ++ if closed then [quote] else []

/-- A blank in place of a character; line ends stay. -/
def blankOut (c : Char) : Char :=
  if c == '\n' then '\n' else ' '

/-- The lexeme with blanks in place of whatever is not code; the quotes of a literal stay. -/
def masked : Lexeme → List Char
  | code c => [c]
  | comment text => text.map blankOut
  | literal quote content closed => quote :: content.map blankOut ++ if closed then [quote] else []

/-- Cuts a text after the first `*/`, or at its end if there is none. -/
def splitBlockEnd (behind : List Char) : List Char → List Char × List Char
  | [] => (behind.reverse, [])
  | '*' :: '/' :: rest => (('/' :: '*' :: behind).reverse, rest)
  | c :: rest => splitBlockEnd (c :: behind) rest

/-- Reads the inside of a literal: its content, whether the quote closes it, and what follows. A backslash makes the
next character content whatever it is; a line end that is not escaped ends the literal and is left to what
follows. -/
def splitLiteral (quote : Char) (behind : List Char) : List Char → List Char × Bool × List Char
  | [] => (behind.reverse, false, [])
  | ['\\'] => (('\\' :: behind).reverse, false, [])
  | '\\' :: c :: rest => splitLiteral quote (c :: '\\' :: behind) rest
  | c :: rest =>
    if c == quote then (behind.reverse, true, rest)
    else if c == '\n' then (behind.reverse, false, c :: rest)
    else splitLiteral quote (c :: behind) rest

/-- Reads the lexeme that begins with `c`, and gives what follows it. -/
def read (c : Char) (rest : List Char) : Lexeme × List Char :=
  match c, rest with
  | '/', '/' :: more => (comment ('/' :: '/' :: more.takeWhile (· != '\n')), more.dropWhile (· != '\n'))
  | '/', '*' :: more =>
    let (text, after) := splitBlockEnd [] more
    (comment ('/' :: '*' :: text), after)
  | _, _ =>
    if c == '"' || c == '\'' then
      let (content, closed, after) := splitLiteral c [] rest
      (literal c content closed, after)
    else (code c, rest)

theorem length_splitBlockEnd_le (behind text : List Char) : (splitBlockEnd behind text).2.length ≤ text.length := by
  fun_induction splitBlockEnd behind text with
  | case1 => simp
  | case2 => simp; omega
  | case3 _ _ _ _ ih => simp; omega

theorem length_splitLiteral_le (quote : Char) (behind text : List Char) :
    (splitLiteral quote behind text).2.2.length ≤ text.length := by
  fun_induction splitLiteral quote behind text with
  | case1 => simp
  | case2 => simp
  | case3 _ _ _ ih => simp; omega
  | case4 => simp
  | case5 => simp
  | case6 => simp; omega

/-- Every lexeme takes at least its first character. -/
theorem length_read_le (c : Char) (rest : List Char) : (read c rest).2.length ≤ rest.length := by
  unfold read
  split
  · exact Nat.le_succ_of_le (List.dropWhile_suffix _).length_le
  · exact Nat.le_succ_of_le (length_splitBlockEnd_le _ _)
  · split
    · exact length_splitLiteral_le _ _ _
    · exact Nat.le_refl _

theorem splitBlockEnd_append (behind text : List Char) :
    (splitBlockEnd behind text).1 ++ (splitBlockEnd behind text).2 = behind.reverse ++ text := by
  fun_induction splitBlockEnd behind text with
  | case1 => simp
  | case2 => simp
  | case3 _ _ _ _ ih => simp [ih]

theorem splitLiteral_append (quote : Char) (behind text : List Char) :
    (splitLiteral quote behind text).1 ++ (if (splitLiteral quote behind text).2.1 then [quote] else []) ++
      (splitLiteral quote behind text).2.2 = behind.reverse ++ text := by
  fun_induction splitLiteral quote behind text with
  | case1 => simp
  | case2 => simp
  | case3 _ _ _ ih => simpa using ih
  | case4 _ c _ _ _ h => simp_all
  | case5 => simp
  | case6 _ _ _ _ _ _ _ ih => simpa using ih

/-- A lexeme and what follows it are what was there. -/
theorem source_read_append (c : Char) (rest : List Char) : (read c rest).1.source ++ (read c rest).2 = c :: rest := by
  unfold read
  split
  · simp [source]
  · simp [source, splitBlockEnd_append]
  · split
    · simpa [source] using splitLiteral_append c [] rest
    · rfl

theorem length_masked (lexeme : Lexeme) : lexeme.masked.length = lexeme.source.length := by
  cases lexeme with
  | code => rfl
  | comment => simp [masked, source]
  | literal => simp [masked, source]

end Lexeme

/-- Reads at most `fuel` lexemes onto the reversed result. -/
def lexemesOnto (done : List Lexeme) : (fuel : Nat) → List Char → List Lexeme
  | 0, _ => done.reverse
  | _ + 1, [] => done.reverse
  | fuel + 1, c :: rest =>
    let (lexeme, after) := Lexeme.read c rest
    lexemesOnto (lexeme :: done) fuel after

/-- The lexemes of a source, in order. -/
def lexemes (source : List Char) : List Lexeme :=
  lexemesOnto [] source.length source

theorem lexemesOnto_eq_append (done : List Lexeme) (fuel : Nat) (text : List Char) :
    lexemesOnto done fuel text = done.reverse ++ lexemesOnto [] fuel text := by
  induction fuel generalizing done text with
  | zero => simp [lexemesOnto]
  | succ fuel ih =>
    cases text with
    | nil => simp [lexemesOnto]
    | cons c rest =>
      simp only [lexemesOnto]
      rw [ih (_ :: done), ih [_]]
      simp

theorem lexemesOnto_nil (done : List Lexeme) (fuel : Nat) : lexemesOnto done fuel [] = done.reverse := by
  cases fuel <;> rfl

/-- Fuel for every character is enough, so more of it changes nothing. -/
theorem lexemesOnto_of_length_le (fuel : Nat) (text : List Char) (h : text.length ≤ fuel) :
    lexemesOnto [] fuel text = lexemes text := by
  induction fuel using Nat.strongRecOn generalizing text with
  | _ fuel ih =>
    match fuel, text, h with
    | fuel, [], _ => exact lexemesOnto_nil [] fuel
    | fuel + 1, c :: rest, h =>
      have hread := Lexeme.length_read_le c rest
      simp only [List.length_cons, Nat.add_le_add_iff_right] at h
      simp only [lexemes, List.length_cons, lexemesOnto]
      rw [lexemesOnto_eq_append, lexemesOnto_eq_append _ rest.length,
        ih fuel (by omega) _ (by omega), ih rest.length (by omega) _ (by omega)]

@[simp] theorem lexemes_nil : lexemes [] = [] := rfl

/-- The lexemes of a text are the first one and those of what follows it. -/
theorem lexemes_cons (c : Char) (rest : List Char) :
    lexemes (c :: rest) = (Lexeme.read c rest).1 :: lexemes (Lexeme.read c rest).2 := by
  have hread := Lexeme.length_read_le c rest
  rw [← lexemesOnto_of_length_le rest.length _ hread]
  simp only [lexemes, List.length_cons, lexemesOnto]
  rw [lexemesOnto_eq_append]
  rfl

/-- The lexemes of a source concatenate to it: nothing is lost, added or reordered. -/
theorem source_lexemes (text : List Char) : (lexemes text).flatMap Lexeme.source = text := by
  match text with
  | [] => rfl
  | c :: rest =>
    have hread := Lexeme.length_read_le c rest
    rw [lexemes_cons, List.flatMap_cons, source_lexemes, Lexeme.source_read_append]
termination_by text.length

/-- The source with blanks in place of comments and of what stands between quotes. -/
def mask (source : List Char) : List Char :=
  (lexemes source).flatMap Lexeme.masked

theorem mask_cons (c : Char) (rest : List Char) :
    mask (c :: rest) = (Lexeme.read c rest).1.masked ++ mask (Lexeme.read c rest).2 := by
  simp [mask, lexemes_cons]

/-- Masking keeps every place where it is. -/
theorem length_mask (source : List Char) : (mask source).length = source.length := by
  have h : ∀ pieces : List Lexeme,
      (pieces.flatMap Lexeme.masked).length = (pieces.flatMap Lexeme.source).length := by
    intro pieces
    induction pieces with
    | nil => rfl
    | cons lexeme _ ih => simp [Lexeme.length_masked, ih]
  rw [mask, h, source_lexemes]

end ContractMigration.Solidity
