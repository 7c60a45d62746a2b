import ContractMigration.Proofs.Solidity.Identifier
import ContractMigration.Solidity.Declaration

/-!
# Finding headers

A header begins with a whole run of characters that join. So a run followed by a character that does not join begins
no header unless the run is a kind keyword with blanks and an identifier behind it, or `abstract` in front of one
(`read?_run`), and the search for the last header moves from run to run (`lastFrom_run`).
-/

namespace ContractMigration.Solidity

open Text

namespace Header

theorem not_joins_of_isBlank {c : Char} (h : isBlank c = true) : joins c = false := by
  have hdollar : c ≠ '$' := by
    rintro rfl
    exact absurd h (by decide)
  have hdot : c ≠ '.' := by
    rintro rfl
    exact absurd h (by decide)
  simp [joins, isWordChar_of_isBlank h, hdollar, hdot]

theorem not_isBlank_of_joins {c : Char} (h : joins c = true) : isBlank c = false := by
  cases hc : isBlank c with
  | false => rfl
  | true => exact absurd h (by simp [not_joins_of_isBlank hc])

theorem joins_ne {c d : Char} (h : joins c = true) (hd : joins d = false) : c ≠ d := by
  rintro rfl
  exact absurd h (by simp [hd])

theorem nestingAfter_of_joins {c : Char} (h : joins c = true) (depth : Nat) : nestingAfter depth c = depth := by
  have hne : ∀ d, joins d = false → (c == d) = false := fun d hd => by simpa using joins_ne h hd
  simp only [nestingAfter, hne _ (by decide : joins '(' = false), hne _ (by decide : joins ')' = false),
    hne _ (by decide : joins '[' = false), hne _ (by decide : joins ']' = false),
    hne _ (by decide : joins '\x7b' = false), hne _ (by decide : joins '\x7d' = false)]
  rfl

theorem joins_of_isIdentifier {name : List Char} (h : isIdentifier name = true) : ∀ c ∈ name, joins c = true :=
  fun c hc => Bool.or_eq_true_iff.2 (.inl (isIdentifierChar_of_isIdentifier h c hc))

theorem joins_of_isDotted {name : List Char} (h : IsDotted name) : ∀ c ∈ name, joins c = true := by
  intro c hc
  rcases h.isIdentifierChar c hc with rfl | hchar
  · decide
  · exact Bool.or_eq_true_iff.2 (.inl hchar)

theorem joins_word (kind : DeclarationKind) : ∀ c ∈ kind.word.toList, joins c = true := by
  cases kind <;> exact List.all_eq_true.1 (by decide)

theorem joins_abstract : ∀ c ∈ "abstract".toList, joins c = true :=
  List.all_eq_true.1 (by decide)

/-- Whether a text begins like an identifier. -/
def beginsIdentifier (text : List Char) : Bool :=
  (text.head?.map isIdentifierStart).getD false

theorem readDeclared_eq_none_iff {text : List Char} :
    readDeclared text = none ↔
      ∀ kind rest, after? (DeclarationKind.word kind).toList text = some rest →
        rest.takeWhile isBlank = [] ∨ beginsIdentifier (trimLeft rest) = false := by
  have hall : ∀ kind, kind ∈ DeclarationKind.all := by
    intro kind
    cases kind <;> decide
  rw [readDeclared, List.findSome?_eq_none_iff]
  refine ⟨fun h kind rest hrest => ?_, fun h kind _ => ?_⟩
  · have hkind := h kind (hall kind)
    simp only [hrest, drop_length_takeWhile] at hkind
    rw [trimLeft]
    cases htrim : rest.dropWhile isBlank with
    | nil => exact .inr rfl
    | cons c more =>
      simpa [htrim, beginsIdentifier, Decidable.imp_iff_not_or] using hkind
  · cases hrest : after? (DeclarationKind.word kind).toList text with
    | none => rfl
    | some rest =>
      have hgap := h kind rest hrest
      simp only [drop_length_takeWhile]
      rw [trimLeft] at hgap
      cases htrim : rest.dropWhile isBlank with
      | nil => rfl
      | cons c more =>
        simpa [htrim, beginsIdentifier, Decidable.imp_iff_not_or] using hgap

theorem readDeclared_run {run rest : List Char} (hrun : ∀ c ∈ run, joins c = true) {d : Char} (hd : joins d = false)
    (h : (∀ kind, run ≠ (DeclarationKind.word kind).toList) ∨ isBlank d = false ∨
      beginsIdentifier (trimLeft (d :: rest)) = false) : readDeclared (run ++ d :: rest) = none := by
  rw [readDeclared_eq_none_iff]
  intro kind found hfound
  obtain ⟨more, rfl, rfl⟩ := after?_run (joins_word kind) (by simpa using hd) hfound
  cases more with
  | nil =>
    rw [List.nil_append]
    rcases h with hne | hblank | hstart
    · exact absurd (List.append_nil _) (hne kind)
    · exact .inl (List.takeWhile_cons_of_neg (by simp [hblank]))
    · exact .inr hstart
  | cons e more =>
    have he := not_isBlank_of_joins (hrun e (by simp))
    exact .inl (List.takeWhile_cons_of_neg (by simp [he]))

/-- What a run must not be followed by so that no header begins with it. -/
theorem read?_run {run rest : List Char} (hrun : ∀ c ∈ run, joins c = true) {d : Char} (hd : joins d = false)
    (hkind : (∀ kind, run ≠ (DeclarationKind.word kind).toList) ∨ isBlank d = false ∨
      beginsIdentifier (trimLeft (d :: rest)) = false)
    (habstract : run = "abstract".toList → isBlank d = true → readDeclared (trimLeft (d :: rest)) = none) :
    read? (run ++ d :: rest) = none := by
  unfold read?
  split
  · exact readDeclared_run hrun hd hkind
  · next found hfound =>
    obtain ⟨more, rfl, rfl⟩ := after?_run joins_abstract (by simpa using hd) hfound
    simp only [drop_length_takeWhile]
    cases more with
    | nil =>
      rw [List.nil_append]
      by_cases hblank : isBlank d = true
      · have hnone := habstract (List.append_nil _) hblank
        rw [trimLeft] at hnone
        rw [hnone, Option.map_none, ite_self]
      · rw [List.takeWhile_cons_of_neg hblank]
        rfl
    | cons e more =>
      have he := not_isBlank_of_joins (hrun e (by simp))
      rw [List.cons_append, List.takeWhile_cons_of_neg (by simp [he])]
      rfl

theorem read?_not_joins {d : Char} (hd : joins d = false) (rest : List Char) : read? (d :: rest) = none := by
  have hkind : ∀ kind, [] ≠ (DeclarationKind.word kind).toList := by
    intro kind
    cases kind <;> decide
  exact read?_run (fun c hc => absurd hc List.not_mem_nil) hd (.inl hkind) fun h => absurd h (by decide)

/-! ### The search for the last header -/

theorem lastFrom_not_joins {d : Char} (hd : joins d = false) (latest : Option (Nat × Header)) (joined : Bool)
    (index : Nat) (rest : List Char) :
    lastFrom latest 0 joined index (d :: rest) = lastFrom latest 0 false (index + 1) rest := by
  rw [lastFrom, read?_not_joins hd, ite_self, hd]

theorem lastFrom_gap {gap : List Char} (hgap : ∀ c ∈ gap, joins c = false) (latest : Option (Nat × Header))
    (index : Nat) (rest : List Char) :
    lastFrom latest 0 false index (gap ++ rest) = lastFrom latest 0 false (index + gap.length) rest := by
  induction gap generalizing index with
  | nil => rfl
  | cons c gap ih =>
    rw [List.forall_mem_cons] at hgap
    rw [List.cons_append, lastFrom_not_joins hgap.1, ih hgap.2, List.length_cons, Nat.add_right_comm, Nat.add_assoc]

theorem lastFrom_joined {run : List Char} (hrun : ∀ c ∈ run, joins c = true) {d : Char} (hd : joins d = false)
    (latest : Option (Nat × Header)) (index : Nat) (rest : List Char) :
    lastFrom latest 0 true index (run ++ d :: rest) = lastFrom latest 0 false (index + run.length + 1) rest := by
  induction run generalizing index with
  | nil => exact lastFrom_not_joins hd latest true index rest
  | cons c run ih =>
    rw [List.forall_mem_cons] at hrun
    rw [List.cons_append, lastFrom, if_pos rfl, hrun.1, ih hrun.2, List.length_cons, Nat.add_right_comm index,
      ← Nat.add_assoc index]

/-- A run that begins no header is passed over together with the character behind it. -/
theorem lastFrom_run {run : List Char} (hrun : ∀ c ∈ run, joins c = true) {d : Char} (hd : joins d = false)
    {rest : List Char} (hnone : read? (run ++ d :: rest) = none) (latest : Option (Nat × Header)) (index : Nat) :
    lastFrom latest 0 false index (run ++ d :: rest) = lastFrom latest 0 false (index + run.length + 1) rest := by
  cases run with
  | nil => exact lastFrom_not_joins hd latest false index rest
  | cons c run =>
    rw [List.forall_mem_cons] at hrun
    rw [List.cons_append] at hnone ⊢
    rw [lastFrom, if_neg (by decide), hnone, hrun.1, lastFrom_joined hrun.2 hd, List.length_cons,
      Nat.add_right_comm index, ← Nat.add_assoc index]

theorem lastFrom_skip {skipped : List Char} {d : Char} (hd : joins d = false) (latest : Option (Nat × Header))
    (joined : Bool) (index : Nat) (rest : List Char) :
    lastFrom latest skipped.length joined index (skipped ++ d :: rest) =
      lastFrom latest 0 false (index + skipped.length + 1) rest := by
  induction skipped generalizing joined index with
  | nil => exact lastFrom_not_joins hd latest joined index rest
  | cons c skipped ih =>
    rw [List.cons_append, List.length_cons, lastFrom, ih]
    congr 1
    omega

/-- A header that is read becomes the latest one, and the search goes on behind it. -/
theorem lastFrom_header {text : List Char} {d : Char} (hd : joins d = false) {rest : List Char} {header : Header}
    (hread : read? (text ++ d :: rest) = some header) (hwidth : header.width = text.length) (hne : text ≠ [])
    (latest : Option (Nat × Header)) (index : Nat) :
    lastFrom latest 0 false index (text ++ d :: rest) =
      lastFrom (some (index, header)) 0 false (index + text.length + 1) rest := by
  obtain ⟨c, text, rfl⟩ := List.exists_cons_of_ne_nil hne
  rw [List.cons_append] at hread ⊢
  rw [lastFrom, if_neg (by decide), hread]
  simp only [hwidth, List.length_cons, Nat.add_sub_cancel]
  rw [lastFrom_skip hd]
  congr 1
  omega

end Header

end ContractMigration.Solidity
