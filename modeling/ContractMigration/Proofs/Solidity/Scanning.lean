import ContractMigration.Proofs.Solidity.Masking
import ContractMigration.Proofs.Text.Search
import ContractMigration.Solidity.Declaration

/-!
# The scan, piece by piece

The scan is restated without fuel (`scanFrom`): it looks at the piece up to the next terminator, and what it does
there is one of four things. The piece declares nothing and is passed over, its body is not closed and the scan fails,
its body is closed and a declaration is yielded, or there is no terminator and the scan ends. Later proofs know the
scan through these equations alone.
-/

namespace ContractMigration.Solidity

/-! ### The closing bracket -/

theorem closingFrom_eq_none {opener closer : Char} {text : List Char} (h : closer ∉ text) (depth index : Nat) :
    closingFrom opener closer depth index text = none := by
  induction text generalizing depth index with
  | nil => rfl
  | cons c rest ih =>
    rw [List.mem_cons, not_or] at h
    have hclose : (c == closer) = false := by simpa using Ne.symm h.1
    simp only [closingFrom, hclose, Bool.false_eq_true, if_false, ih h.2, ite_self]

/-- A closer that is found lies in the front of a text whose end holds none, and stays when that end is replaced. -/
theorem closingFrom_append {opener closer : Char} {front last : List Char} (hlast : closer ∉ last)
    {depth index found : Nat} (h : closingFrom opener closer depth index (front ++ last) = some found)
    (other : List Char) :
    found < index + front.length ∧ closingFrom opener closer depth index (front ++ other) = some found := by
  induction front generalizing depth index with
  | nil =>
    rw [List.nil_append, closingFrom_eq_none hlast] at h
    exact absurd h (by simp)
  | cons c front ih =>
    simp only [List.cons_append, closingFrom, List.length_cons] at h ⊢
    split at h
    · next hopen =>
      rw [if_pos hopen]
      exact (ih h).imp_left (by omega)
    · next hopen =>
      rw [if_neg hopen]
      split at h
      · next hclose =>
        rw [if_pos hclose]
        split at h
        · next hdepth =>
          rw [if_pos hdepth]
          exact ⟨by have := Option.some.inj h; omega, h⟩
        · next hdepth =>
          rw [if_neg hdepth]
          exact (ih h).imp_left (by omega)
      · next hclose =>
        rw [if_neg hclose]
        exact (ih h).imp_left (by omega)

/-! ### The fuel -/

theorem scanOnto_eq_append (done : List Declaration) (fuel offset : Nat) (source masked : List Char) :
    scanOnto done fuel offset source masked =
      ⟨done.reverse ++ (scanOnto [] fuel offset source masked).declarations,
        (scanOnto [] fuel offset source masked).failure⟩ := by
  induction fuel generalizing done offset source masked with
  | zero => simp [scanOnto]
  | succ fuel ih =>
    simp only [scanOnto]
    split
    · simp
    · split
      · exact ih done _ _ _
      · split
        · exact ih done _ _ _
        · split
          · simp
          · rw [ih (_ :: done), ih [_]]
            simp

theorem scanOnto_of_length_lt (fuel offset : Nat) (source masked : List Char) (h : masked.length < fuel) :
    scanOnto [] fuel offset source masked = scanOnto [] (masked.length + 1) offset source masked := by
  induction fuel using Nat.strongRecOn generalizing offset source masked with
  | _ fuel ih =>
    match fuel with
    | 0 => omega
    | fuel + 1 =>
      simp only [scanOnto]
      split
      · rfl
      · next terminator rest hrest =>
        have hlen : rest.length + 1 ≤ masked.length := by
          have := congrArg List.length hrest
          rw [List.length_drop, List.length_cons] at this
          omega
        have hshort : ∀ (offset : Nat) (source shorter : List Char), shorter.length ≤ rest.length →
            scanOnto [] fuel offset source shorter = scanOnto [] masked.length offset source shorter := by
          intro offset source shorter hle
          rw [ih fuel (by omega) offset source shorter (by omega)]
          by_cases hlong : shorter.length + 1 = masked.length
          · rw [hlong]
          · exact (ih masked.length (by omega) offset source shorter (by omega)).symm
        split
        · exact hshort _ _ _ (Nat.le_refl _)
        · split
          · exact hshort _ _ _ (Nat.le_refl _)
          · split
            · rfl
            · rw [scanOnto_eq_append, scanOnto_eq_append [_] masked.length]
              rw [hshort _ _ _ (by rw [List.length_drop]; omega)]

/-! ### The scan without fuel -/

/-- The scan of the texts that begin at index `offset` of the source. -/
def scanFrom (offset : Nat) (source masked : List Char) : Scan :=
  scanOnto [] (masked.length + 1) offset source masked

theorem scan_eq_scanFrom (source masked : List Char) : scan source masked = scanFrom 0 source masked := rfl

/-- The header that declares something with the terminator that ends a piece. -/
def declaredBy (terminator : Char) (piece : List Char) : Option (Nat × Header) :=
  if terminator = '\x7b' then (Header.last? piece).filter (·.2.isDeclaration) else none

/-- The declaration with a header that begins at index `start` of a piece; the piece begins at index `offset` of the
source, and the body takes up the first `length` characters behind the brace. -/
def declarationOf (offset start : Nat) (header : Header) (length : Nat) (inside rest : List Char) : Declaration where
  kind := header.kind
  name := String.ofList header.name
  bases := header.bases.map String.ofList
  body := inside.take length
  maskedBody := rest.take length
  isAbstract := header.isAbstract
  offset := offset + start + header.lead

/-- A text is free of terminators, or it has a first one. -/
theorem free_or_piece (text : List Char) :
    (∀ c ∈ text, isTerminator c = false) ∨
    ∃ piece terminator rest, text = piece ++ terminator :: rest ∧ (∀ c ∈ piece, isTerminator c = false) ∧
      isTerminator terminator = true := by
  simpa using Text.all_or_first (!isTerminator ·) text

theorem takeWhile_piece {piece : List Char} (hpiece : ∀ c ∈ piece, isTerminator c = false) {terminator : Char}
    (hterminator : isTerminator terminator = true) (rest : List Char) :
    (piece ++ terminator :: rest).takeWhile (!isTerminator ·) = piece :=
  Text.takeWhile_stop (by simpa using hpiece) (by simpa using hterminator) rest

theorem scanFrom_free {masked : List Char} (h : ∀ c ∈ masked, isTerminator c = false) (offset : Nat)
    (source : List Char) : scanFrom offset source masked = ⟨[], none⟩ := by
  have hpiece : masked.takeWhile (!isTerminator ·) = masked := List.takeWhile_eq_self_iff.2 (by simpa using h)
  simp only [scanFrom, scanOnto, hpiece, List.drop_length]
  rfl

section Piece

variable {piece : List Char} {terminator : Char} (hpiece : ∀ c ∈ piece, isTerminator c = false)
  (hterminator : isTerminator terminator = true)
include hpiece hterminator

/-- One step of the scan, as a case distinction on what the piece declares and where its body ends. -/
theorem scanFrom_piece (offset : Nat) (source rest : List Char) :
    scanFrom offset source (piece ++ terminator :: rest) =
      match declaredBy terminator piece with
      | none => scanFrom (offset + piece.length + 1) (source.drop (piece.length + 1)) rest
      | some (start, header) =>
        match closingFrom '\x7b' '\x7d' 1 0 rest with
        | none => ⟨[], some ⟨String.ofList header.name, offset + piece.length⟩⟩
        | some length =>
          let after := scanFrom (offset + piece.length + length + 2) ((source.drop (piece.length + 1)).drop (length + 1))
            (rest.drop (length + 1))
          ⟨declarationOf offset start header length (source.drop (piece.length + 1)) rest :: after.declarations,
            after.failure⟩ := by
  have hfuel : rest.length < (piece ++ terminator :: rest).length := by simp; omega
  unfold scanFrom declaredBy
  rw [scanOnto, takeWhile_piece hpiece hterminator, List.drop_left]
  simp only [beq_iff_eq]
  by_cases hbrace : terminator = '\x7b'
  · rw [if_pos hbrace, if_pos hbrace]
    cases hlast : Header.last? piece with
    | none => exact scanOnto_of_length_lt _ _ _ _ hfuel
    | some found =>
      obtain ⟨start, header⟩ := found
      by_cases hdeclares : header.isDeclaration = true
      · simp only [hdeclares, Option.filter_some, if_true, Bool.not_true, Bool.false_eq_true, if_false]
        cases hclose : closingFrom '\x7b' '\x7d' 1 0 rest with
        | none => rfl
        | some length =>
          have hdrop : (rest.drop (length + 1)).length < (piece ++ terminator :: rest).length := by
            rw [List.length_drop]
            omega
          simp only
          rw [scanOnto_eq_append, scanOnto_of_length_lt _ _ _ _ hdrop]
          rfl
      · rw [Bool.not_eq_true] at hdeclares
        simp only [hdeclares, Option.filter_some, Bool.not_false, Bool.false_eq_true, if_true, if_false]
        exact scanOnto_of_length_lt _ _ _ _ hfuel
  · rw [if_neg hbrace, if_neg hbrace]
    exact scanOnto_of_length_lt _ _ _ _ hfuel

theorem scanFrom_passed (h : declaredBy terminator piece = none) (offset : Nat) (source rest : List Char) :
    scanFrom offset source (piece ++ terminator :: rest) =
      scanFrom (offset + piece.length + 1) (source.drop (piece.length + 1)) rest := by
  rw [scanFrom_piece hpiece hterminator, h]

theorem scanFrom_unterminated {start : Nat} {header : Header} (h : declaredBy terminator piece = some (start, header))
    {rest : List Char} (hopen : closingFrom '\x7b' '\x7d' 1 0 rest = none) (offset : Nat) (source : List Char) :
    scanFrom offset source (piece ++ terminator :: rest) =
      ⟨[], some ⟨String.ofList header.name, offset + piece.length⟩⟩ := by
  rw [scanFrom_piece hpiece hterminator, h]
  simp only [hopen]

theorem scanFrom_declared {start length : Nat} {header : Header}
    (h : declaredBy terminator piece = some (start, header)) {rest : List Char}
    (hclose : closingFrom '\x7b' '\x7d' 1 0 rest = some length) (offset : Nat) (source : List Char) :
    scanFrom offset source (piece ++ terminator :: rest) =
      ⟨declarationOf offset start header length (source.drop (piece.length + 1)) rest ::
          (scanFrom (offset + piece.length + length + 2) ((source.drop (piece.length + 1)).drop (length + 1))
            (rest.drop (length + 1))).declarations,
        (scanFrom (offset + piece.length + length + 2) ((source.drop (piece.length + 1)).drop (length + 1))
          (rest.drop (length + 1))).failure⟩ := by
  rw [scanFrom_piece hpiece hterminator, h]
  simp only [hclose]

end Piece

end ContractMigration.Solidity
