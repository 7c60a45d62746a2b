import ContractMigration.Proofs.Json.Numbers

/-!
# The shortest form is a number

Whatever the number of double precision, its shortest form is read as a number of double precision (`gives_shortest`).
Which one it is, is not asked here. The digits that are found for a number other than zero do not begin with a zero
(`exists_significant_cons`), so in each layout they are the whole part and the fraction of a literal
(`shortestMagnitude_eq`), and a literal with a fraction or an exponent is read as such a number (`readScalar_literal`).
-/

namespace ContractMigration.Json

open Text

/-! ### Literals -/

/-- The digits before a point: a zero alone, or digits of which the first is no zero. -/
structure WholeDigits (whole : List Char) : Prop where
  isDigit : ∀ c ∈ whole, c.isDigit = true
  leading : whole = ['0'] ∨ ∃ c rest, whole = c :: rest ∧ c ≠ '0'

/-- The digits behind a point. -/
structure SomeDigits (digits : List Char) : Prop where
  isDigit : ∀ c ∈ digits, c.isDigit = true
  nonempty : digits ≠ []

theorem wholeDigits_zero : WholeDigits ['0'] :=
  ⟨List.forall_mem_singleton.2 rfl, .inl rfl⟩

theorem someDigits_zero : SomeDigits ['0'] :=
  ⟨List.forall_mem_singleton.2 rfl, List.cons_ne_nil _ _⟩

/-- No digit follows. -/
def Ended (rest : List Char) : Prop :=
  ∀ c ∈ rest.head?, c.isDigit = false

theorem ended_cons {c : Char} (h : c.isDigit = false) (rest : List Char) : Ended (c :: rest) := by
  simpa [Ended] using h

theorem splitDigits_ended {digits rest : List Char} (h : ∀ c ∈ digits, c.isDigit = true) (hrest : Ended rest) :
    splitDigits (digits ++ rest) = (digits, rest) := by
  rw [splitDigits, takeWhile_append_of_head h hrest, List.dropWhile_append_of_pos h]
  cases rest with
  | nil => rfl
  | cons c rest => rw [List.dropWhile_cons_of_neg (by simp [hrest c rfl])]

theorem WholeDigits.splitWhole {whole rest : List Char} (h : WholeDigits whole) (hrest : Ended rest) :
    splitWhole (whole ++ rest) = (whole, rest) := by
  rcases h.leading with rfl | ⟨c, more, rfl, hc⟩
  · rfl
  · rw [splitWhole_eq, if_neg (by simpa using hc), splitDigits_ended h.isDigit hrest]

theorem SomeDigits.splitFraction {fraction rest : List Char} (h : SomeDigits fraction) (hrest : Ended rest) :
    splitFraction ('.' :: fraction ++ rest) = (fraction, rest) := by
  have hsplit := splitDigits_ended h.isDigit hrest
  simp [ContractMigration.Json.splitFraction, hsplit, h.nonempty]

theorem SomeDigits.splitExponent {digits : List Char} (h : SomeDigits digits) {sign : Char}
    (hsign : sign = '-' ∨ sign = '+') :
    ∃ exponent, splitExponent ('e' :: sign :: digits) = (some exponent, []) := by
  have hend : Ended [] := by simp [Ended]
  have hsplit : splitDigits digits = (digits, []) := by simpa using splitDigits_ended h.isDigit hend
  rcases hsign with rfl | rfl
  all_goals
    simp [ContractMigration.Json.splitExponent, hsplit, h.nonempty]

/-- What stands behind the whole part of a literal that is no integer: a fraction, an exponent, or both. -/
inductive Behind : List Char → Prop
  | fraction {digits : List Char} : SomeDigits digits → Behind ('.' :: digits)
  | exponent {sign : Char} {digits : List Char} :
    sign = '-' ∨ sign = '+' → SomeDigits digits → Behind ('e' :: sign :: digits)
  | both {fraction digits : List Char} {sign : Char} :
    SomeDigits fraction → sign = '-' ∨ sign = '+' → SomeDigits digits → Behind ('.' :: fraction ++ 'e' :: sign :: digits)

theorem Behind.split {behind : List Char} (h : Behind behind) :
    Ended behind ∧ ∃ fraction exponent after, splitFraction behind = (fraction, after) ∧
      splitExponent after = (exponent, []) ∧ (fraction.isEmpty && exponent.isNone) = false := by
  cases h with
  | fraction hdigits =>
    have hsplit := hdigits.splitFraction (by simp [Ended] : Ended [])
    rw [List.append_nil] at hsplit
    exact ⟨ended_cons (by decide) _, _, _, _, hsplit, rfl, by simp [hdigits.nonempty]⟩
  | exponent hsign hdigits =>
    obtain ⟨exponent, hexponent⟩ := hdigits.splitExponent hsign
    exact ⟨ended_cons (by decide) _, _, _, _, rfl, hexponent, by simp⟩
  | both hfraction hsign hdigits =>
    obtain ⟨exponent, hexponent⟩ := hdigits.splitExponent hsign
    exact ⟨ended_cons (by decide) _, _, _, _, hfraction.splitFraction (ended_cons (by decide) _), hexponent, by simp⟩

theorem literalChar_of_digit {c : Char} (h : c.isDigit = true) : isLiteralChar c = true := by
  simp [isLiteralChar, h]

theorem Behind.literalChars {behind : List Char} (h : Behind behind) : ∀ c ∈ behind, isLiteralChar c = true := by
  have hdigits {digits : List Char} (h : SomeDigits digits) : ∀ c ∈ digits, isLiteralChar c = true := fun c hc =>
    literalChar_of_digit (h.isDigit c hc)
  have hexponent {sign : Char} {digits : List Char} (hsign : sign = '-' ∨ sign = '+') (h : SomeDigits digits) :
      ∀ c ∈ 'e' :: sign :: digits, isLiteralChar c = true := by
    rw [List.forall_mem_cons, List.forall_mem_cons]
    refine ⟨by decide, ?_, hdigits h⟩
    rcases hsign with rfl | rfl <;> decide
  cases h with
  | fraction h => exact List.forall_mem_cons.2 ⟨by decide, hdigits h⟩
  | exponent hsign h => exact hexponent hsign h
  | both hfraction hsign h =>
    exact List.forall_mem_append.2 ⟨List.forall_mem_cons.2 ⟨by decide, hdigits hfraction⟩, hexponent hsign h⟩

/-- A literal that is no integer is read as a number of double precision. -/
theorem readScalar_literal (negative : Bool) {whole behind : List Char} (hwhole : WholeDigits whole)
    (hbehind : Behind behind) :
    ∃ x place, readScalar {} 0 ((if negative then ['-'] else []) ++ (whole ++ behind)) = .ok (.real x, place, []) := by
  obtain ⟨hended, fraction, exponent, after, hfraction, hexponent, hreal⟩ := hbehind.split
  have hne : whole ≠ [] := by
    rcases hwhole.leading with rfl | ⟨c, more, rfl, -⟩ <;> exact List.cons_ne_nil _ _
  have hword : wordAt? ((if negative then ['-'] else []) ++ (whole ++ behind)) = none := by
    refine wordAt?_eq_none (List.forall_mem_append.2 ⟨?_, List.forall_mem_append.2 ⟨?_, hbehind.literalChars⟩⟩)
    · cases negative <;> simp [isLiteralChar]
    · exact fun c hc => literalChar_of_digit (hwhole.isDigit c hc)
  have hsign : splitSign ((if negative then ['-'] else []) ++ (whole ++ behind)) = (negative, whole ++ behind) := by
    obtain ⟨c, more, rfl⟩ := List.exists_cons_of_ne_nil hne
    have hminus : c ≠ '-' := by
      rintro rfl
      exact absurd (hwhole.isDigit '-' List.mem_cons_self) (by decide)
    cases negative with
    | false => simp [splitSign, hminus]
    | true => rfl
  have hnumber : splitNumber ((if negative then ['-'] else []) ++ (whole ++ behind)) =
      (⟨negative, whole, fraction, exponent⟩, []) := by
    simp only [splitNumber, hsign, hwhole.splitWhole hended, hfraction, hexponent]
  rw [readScalar_eq, hword]
  simp only [readNumber_eq, hnumber, NumberParts.value, numberOf, NumberParts.excess?, NumberParts.isInteger, hreal]
  rw [if_neg (by simpa using hne)]
  exact ⟨_, _, rfl⟩

/-! ### The shortest digits -/

open Numeric

theorem neighbourOnGrid_ne_zero {x step : Rat} (hx : x ≠ 0) {digits : Nat} (h : neighbourOnGrid x step = some digits) :
    digits ≠ 0 := by
  -- zero rounds to zero, so it is no neighbour
  have hlower : ∀ {below : Nat}, roundsTo x ((below : Rat) * step) = true → below ≠ 0 := by
    rintro below hrounds rfl
    have hproduct : ((0 : Nat) : Rat) * step = 0 := Rat.zero_mul step
    rw [hproduct, roundsTo, nearestDouble, if_pos rfl, beq_iff_eq] at hrounds
    exact hx hrounds.symm
  rintro rfl
  unfold neighbourOnGrid at h
  dsimp only at h
  split at h
  next => cases h
  next hbelow _ => exact hlower hbelow (Option.some.inj h)
  next => cases h
  next hbelow _ =>
    have hne := hlower hbelow
    split at h
    · exact hne (Option.some.inj h)
    · split at h
      · cases h
      · split at h
        · exact hne (Option.some.inj h)
        · cases h

/-- Either no digits are found at all, or they are those of a positive number. -/
theorem shortestFrom_pos {x : Rat} (hx : x ≠ 0) (exponent : Int) (tries count : Nat) :
    shortestFrom x exponent tries count = (0, 0) ∨ 0 < (shortestFrom x exponent tries count).1 := by
  induction tries generalizing count with
  | zero => exact .inl rfl
  | succ tries ih =>
    simp only [shortestFrom]
    split
    next digits hfound => exact .inr (Nat.pos_of_ne_zero (neighbourOnGrid_ne_zero hx hfound))
    next => exact ih (count + 1)

/-- Without the zeros at their end the digits of a positive number still begin with the first of them. -/
theorem exists_significant_cons {n : Nat} (h : 0 < n) :
    ∃ c more, ((Nat.toDigits 10 n).reverse.dropWhile (· == '0')).reverse = c :: more ∧ c ≠ '0' ∧
      ∀ d ∈ c :: more, d.isDigit = true := by
  obtain ⟨c, rest, hcons, -⟩ := exists_toDigits_cons n
  have hc : c ≠ '0' := by simpa [hcons] using head?_toDigits h
  have hdigits : ∀ d ∈ c :: rest, d.isDigit = true := fun d hd =>
    Nat.isDigit_of_mem_toDigits (by decide) (by decide) (hcons ▸ hd)
  refine ⟨c, (rest.reverse.dropWhile (· == '0')).reverse, ?_, hc, ?_⟩
  · rw [hcons, List.reverse_cons, List.dropWhile_append]
    split
    next hnone => simp [hc, List.isEmpty_iff.1 hnone]
    next => simp
  · rw [List.forall_mem_cons] at hdigits ⊢
    refine ⟨hdigits.1, fun d hd => hdigits.2 d ?_⟩
    exact List.mem_reverse.1 ((List.dropWhile_sublist _).mem (List.mem_reverse.1 hd))

theorem isDigit_of_mem_replicate {count : Nat} : ∀ c ∈ List.replicate count '0', c.isDigit = true := by
  intro c hc
  rw [(List.mem_replicate.1 hc).2]
  decide

theorem someDigits_digitsPadded (width n : Nat) : SomeDigits (digitsPadded width n) where
  isDigit := List.forall_mem_append.2
    ⟨isDigit_of_mem_replicate, fun c hc => Nat.isDigit_of_mem_toDigits (by decide) (by decide) hc⟩
  nonempty := List.append_ne_nil_of_right_ne_nil _ Nat.toDigits_ne_nil

theorem wholeDigits_cons {c : Char} {more : List Char} (hc : c ≠ '0') (h : ∀ d ∈ c :: more, d.isDigit = true) :
    WholeDigits (c :: more) :=
  ⟨h, .inr ⟨c, more, rfl, hc⟩⟩

/-- The shortest form of a number other than zero is a literal that is no integer. -/
theorem shortestMagnitude_eq {x : Rat} (hx : x ≠ 0) :
    ∃ whole behind, shortestMagnitude .standard x = whole ++ behind ∧ WholeDigits whole ∧ Behind behind := by
  unfold shortestMagnitude
  rcases shortestFrom_pos hx (decimalExponent x) 18 1 with hnone | hpos
  · rw [hnone]
    exact ⟨['0'], ['.', '0'], rfl, wholeDigits_zero, .fraction someDigits_zero⟩
  · generalize shortestFrom x (decimalExponent x) 18 1 = found at hpos
    obtain ⟨c, more, hcons, hc, hdigits⟩ := exists_significant_cons hpos
    obtain ⟨hfirst, hmore⟩ := List.forall_mem_cons.1 hdigits
    dsimp only
    rw [hcons]
    generalize found.2 + (Nat.toDigits 10 found.1).length - 1 = leading
    -- without an exponent, with the first digit behind the point or before it, and with an exponent
    split
    · split
      · have hfraction : SomeDigits (List.replicate (-leading - 1).toNat '0' ++ c :: more) :=
          ⟨List.forall_mem_append.2 ⟨isDigit_of_mem_replicate, hdigits⟩, by simp⟩
        exact ⟨['0'], _, rfl, wholeDigits_zero, .fraction hfraction⟩
      · rw [List.take_succ_cons, List.drop_succ_cons, List.cons_append]
        refine ⟨_, _, rfl, wholeDigits_cons hc ?_, .fraction ?_⟩
        · rw [← List.cons_append, ← List.take_succ_cons]
          exact List.forall_mem_append.2 ⟨fun d hd => hdigits d (List.mem_of_mem_take hd), isDigit_of_mem_replicate⟩
        · split
          next => exact someDigits_zero
          next hbehind => exact ⟨fun d hd => hmore d (List.mem_of_mem_drop hd), by simpa using hbehind⟩
    · have hsign : (if leading < 0 then '-' else '+') = '-' ∨ (if leading < 0 then '-' else '+') = '+' := by
        split
        · exact .inl rfl
        · exact .inr rfl
      have hexponent := someDigits_digitsPadded 2 leading.natAbs
      have hwhole : WholeDigits [c] := wholeDigits_cons hc (List.forall_mem_singleton.2 hfirst)
      cases more with
      | nil => exact ⟨[c], _, rfl, hwhole, .exponent hsign hexponent⟩
      | cons d rest =>
        exact ⟨[c], _, rfl, hwhole, .both ⟨hmore, List.cons_ne_nil d rest⟩ hsign hexponent⟩

/-! ### What is read of the shortest form -/

theorem exists_readScalar_shortest (x : Double) :
    ∃ y place, readScalar {} 0 x.shortest.toList = .ok (.real y, place, []) := by
  cases x with
  | finite negative magnitude =>
    have hliteral : ∃ whole behind,
        (if magnitude = 0 then "0.0".toList else shortestMagnitude .standard magnitude) = whole ++ behind ∧
          WholeDigits whole ∧ Behind behind := by
      split
      · exact ⟨['0'], ['.', '0'], rfl, wholeDigits_zero, .fraction someDigits_zero⟩
      next hne => exact shortestMagnitude_eq hne
    obtain ⟨whole, behind, heq, hwhole, hbehind⟩ := hliteral
    obtain ⟨y, place, hread⟩ := readScalar_literal negative hwhole hbehind
    refine ⟨y, place, ?_⟩
    rw [Double.shortest, String.toList_ofList, heq]
    cases negative <;> exact hread
  | infinite negative => cases negative <;> exact ⟨_, _, rfl⟩
  | notANumber => exact ⟨_, _, rfl⟩

/-- The number that is read of the shortest form of a number. -/
def rereadDouble (x : Double) : Double :=
  match readScalar {} 0 x.shortest.toList with
  | .ok (.real y, _, _) => y
  | _ => x

theorem shortest_ne_nil (x : Double) : x.shortest.toList ≠ [] := by
  obtain ⟨y, place, hread⟩ := exists_readScalar_shortest x
  intro hnil
  rw [hnil] at hread
  cases hread

/-- The shortest form of a number is read as a number, wherever it stands. -/
theorem gives_shortest (x : Double) (limits : Limits) {rest : List Char} (hrest : Delimited rest) :
    Gives (readScalar limits) (x.shortest.toList ++ rest) (.real (rereadDouble x)) rest := by
  obtain ⟨y, place, hread⟩ := exists_readScalar_shortest x
  have hreread : rereadDouble x = y := by rw [rereadDouble, hread]
  rw [hreread]
  exact (gives_of_readScalar hread limits).append hrest

end ContractMigration.Json
