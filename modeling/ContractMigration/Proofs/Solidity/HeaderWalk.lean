import ContractMigration.Proofs.Solidity.HeaderSearch
import ContractMigration.Proofs.Solidity.Placement

/-!
# From header to header

The scan cuts the masked text at its terminators and asks each piece for its last header. The same declarations are
found by a walk over the headers that looks for the terminator behind each one (`walk`): a header that another one
follows in front of its terminator declares nothing, and the walk goes on at that other one. The terminator that was
found last may be kept, because it is the first one behind every header that ends in front of it. With it and without,
the walk finds what the scan finds (`scan_eq_walk`).
-/

namespace ContractMigration.Solidity

open Text

/-! ### The walk -/

/-- Whether the character in front of a place joins on to what stands there. -/
def joinedAt (masked : List Char) (place : Nat) : Bool :=
  (masked.take place).getLast?.any Header.joins

/-- The first header that begins at or behind a place and ends in front of another, with the index where it begins. -/
def headerBetween (masked : List Char) (place past : Nat) : Option (Nat × Header) :=
  (findWordFrom Header.joins Header.read? [] (joinedAt masked place) (slice masked place past)).map
    fun (passed, header) => (place + passed.length, header)

/-- The first terminator at or behind a place. -/
def terminatorFrom (masked : List Char) (place : Nat) : Option Nat :=
  ((masked.drop place).findIdx? isTerminator).map (place + ·)

/-- The terminator for a header that ends at a place. With `reuse` the terminator kept from an earlier header is taken
unless it lies in front of the place; otherwise it is searched afresh. -/
def terminatorFor (reuse : Bool) (kept : Option Nat) (masked : List Char) (place : Nat) : Option Nat :=
  match kept with
  | some terminator => if reuse && place ≤ terminator then some terminator else terminatorFrom masked place
  | none => terminatorFrom masked place

/-- What one step of the walk comes to. A step that does not end the walk tells the place where the next one begins
and the terminator to be kept. -/
inductive WalkStep where
  | ended
  | unterminated (failure : UnterminatedBody)
  | passed (place terminator : Nat)
  | declared (declaration : Declaration) (place terminator : Nat)

/-- What a header that begins at index `start` comes to at its own terminator. Behind a declaration the walk goes on at
the end of the body. -/
def settle (source masked : List Char) (start : Nat) (header : Header) (terminator : Nat) : WalkStep :=
  if masked[terminator]? = some ';' ∨ header.isDeclaration = false then .passed (terminator + 1) terminator
  else
    match closingFrom '\x7b' '\x7d' 1 (terminator + 1) (masked.drop (terminator + 1)) with
    | none => .unterminated ⟨String.ofList header.name, terminator⟩
    | some closing =>
      .declared {
        kind := header.kind
        name := String.ofList header.name
        bases := header.bases.map String.ofList
        body := slice source (terminator + 1) closing
        maskedBody := slice masked (terminator + 1) closing
        isAbstract := header.isAbstract
        offset := start + header.lead } (closing + 1) terminator

/-- One step of the walk, with the first header at or behind a place. -/
def walkStep (reuse : Bool) (source masked : List Char) (place : Nat) (kept : Option Nat) : WalkStep :=
  match headerBetween masked place masked.length with
  | none => .ended
  | some (start, header) =>
    let past := start + header.width
    match terminatorFor reuse kept masked past with
    | none => .ended
    | some terminator =>
      match headerBetween masked past terminator with
      | some (inner, _) => .passed inner terminator
      | none => settle source masked start { header with tail := slice masked past terminator } terminator

theorem headerBetween_bounds {masked : List Char} {place past start : Nat} {header : Header}
    (h : headerBetween masked place past = some (start, header)) :
    place ≤ start ∧ start < start + header.width ∧ start + header.width ≤ masked.length := by
  obtain ⟨⟨passed, found⟩, hfind, heq⟩ := Option.map_eq_some_iff.1 h
  obtain ⟨rfl, rfl⟩ := Prod.mk.inj heq
  obtain ⟨here, htext, hread, -⟩ := findWordFrom_eq_some hfind
  obtain ⟨taken, rfl, hwidth, hlast⟩ := Header.read?_width hread
  have htaken : taken ≠ [] := by
    rintro rfl
    exact absurd hlast (by simp)
  have hpos := List.length_pos_iff.2 htaken
  have hlength := congrArg List.length htext
  simp only [slice, List.length_drop, List.length_take, List.length_append] at hlength
  omega

theorem le_of_terminatorFrom {masked : List Char} {place terminator : Nat}
    (h : terminatorFrom masked place = some terminator) : place ≤ terminator := by
  obtain ⟨index, -, rfl⟩ := Option.map_eq_some_iff.1 h
  exact Nat.le_add_right _ _

theorem le_of_terminatorFor {reuse : Bool} {kept : Option Nat} {masked : List Char} {place terminator : Nat}
    (h : terminatorFor reuse kept masked place = some terminator) : place ≤ terminator := by
  unfold terminatorFor at h
  split at h
  · split at h
    · next hkept =>
      simp only [Bool.and_eq_true, decide_eq_true_eq] at hkept
      exact Option.some.inj h ▸ hkept.2
    · exact le_of_terminatorFrom h
  · exact le_of_terminatorFrom h

theorem le_of_closingFrom {opener closer : Char} (hne : opener ≠ closer) {index found : Nat} {text : List Char}
    (h : closingFrom opener closer 1 index text = some found) : index ≤ found := by
  obtain ⟨inside, -, -, rfl, -⟩ := closingFrom_eq_some hne h
  exact Nat.le_add_right _ _

/-- Every step that does not end the walk leads on behind the place where it begins. -/
def WalkStep.LeadsPast (place length : Nat) : WalkStep → Prop
  | passed next _ | declared _ next _ => place < next ∧ place < length
  | ended | unterminated _ => True

theorem settle_leadsPast {source masked : List Char} {start terminator place : Nat} {header : Header}
    (hplace : place < masked.length) (hterminator : place ≤ terminator) :
    (settle source masked start header terminator).LeadsPast place masked.length := by
  unfold settle
  split
  · simp only [WalkStep.LeadsPast]
    omega
  · split
    · trivial
    · next hclosing =>
      have := le_of_closingFrom (by decide) hclosing
      simp only [WalkStep.LeadsPast]
      omega

theorem walkStep_leadsPast (reuse : Bool) (source masked : List Char) (place : Nat) (kept : Option Nat) :
    (walkStep reuse source masked place kept).LeadsPast place masked.length := by
  unfold walkStep
  split
  · trivial
  · next start header hheader =>
    have hbounds := headerBetween_bounds hheader
    simp only
    split
    · trivial
    · next terminator hterminator =>
      have hbehind := le_of_terminatorFor hterminator
      split
      · next hinner =>
        have := headerBetween_bounds hinner
        simp only [WalkStep.LeadsPast]
        omega
      · exact settle_leadsPast (by omega) (by omega)

/-- Goes from header to header, beginning at a place. -/
def walk (reuse : Bool) (source masked : List Char) (place : Nat) (kept : Option Nat) : Scan :=
  match _hstep : walkStep reuse source masked place kept with
  | .ended => ⟨[], none⟩
  | .unterminated failure => ⟨[], some failure⟩
  | .passed next terminator => walk reuse source masked next (some terminator)
  | .declared declaration next terminator =>
    let later := walk reuse source masked next (some terminator)
    ⟨declaration :: later.declarations, later.failure⟩
termination_by masked.length - place
decreasing_by
  all_goals
    have hleads := walkStep_leadsPast reuse source masked place kept
    rw [_hstep] at hleads
    simp only [WalkStep.LeadsPast] at hleads
    omega

/-- A walk is its first step and what the walk from the next place on finds. -/
theorem walk_step (reuse : Bool) (source masked : List Char) (place : Nat) (kept : Option Nat) :
    walk reuse source masked place kept =
      match walkStep reuse source masked place kept with
      | .ended => ⟨[], none⟩
      | .unterminated failure => ⟨[], some failure⟩
      | .passed next terminator => walk reuse source masked next (some terminator)
      | .declared declaration next terminator =>
        ⟨declaration :: (walk reuse source masked next (some terminator)).declarations,
          (walk reuse source masked next (some terminator)).failure⟩ := by
  rw [walk]
  split
  · next h => rw [h]
  · next h => rw [h]
  · next h => rw [h]
  · next h => rw [h]

/-! ### Places -/

theorem drop_add_of_drop {text front back : List Char} {place : Nat} (h : text.drop place = front ++ back) :
    text.drop (place + front.length) = back := by
  rw [← List.drop_drop, h, List.drop_left]

theorem drop_succ_of_drop {text rest : List Char} {c : Char} {place : Nat} (h : text.drop place = c :: rest) :
    text.drop (place + 1) = rest := by
  rw [← List.drop_drop, h, List.drop_succ_cons, List.drop_zero]

theorem slice_of_drop {text front back : List Char} {place : Nat} (h : text.drop place = front ++ back) :
    slice text place (place + front.length) = front := by
  rw [slice, List.drop_take, h, Nat.add_sub_cancel_left, List.take_left]

theorem joinedAt_add {masked front back : List Char} {place : Nat} (h : masked.drop place = front ++ back) :
    joinedAt masked (place + front.length) = (front.getLast?.map Header.joins).getD (joinedAt masked place) := by
  rw [joinedAt, List.take_add, h, List.take_left, List.getLast?_append]
  cases front.getLast? <;> rfl

theorem joinedAt_succ {masked rest : List Char} {c : Char} (hc : Header.joins c = false) {place : Nat}
    (h : masked.drop place = c :: rest) : joinedAt masked (place + 1) = false := by
  have hadd : joinedAt masked (place + 1) = Header.joins c := @joinedAt_add masked [c] rest place h
  rw [hadd, hc]

theorem terminatorFrom_free {masked : List Char} {place : Nat}
    (h : ∀ c ∈ masked.drop place, isTerminator c = false) : terminatorFrom masked place = none := by
  rw [terminatorFrom, List.findIdx?_eq_none_iff.2 h, Option.map_none]

theorem terminatorFrom_piece {masked piece rest : List Char} {terminator : Char} {place : Nat}
    (hmasked : masked.drop place = piece ++ terminator :: rest) (hpiece : ∀ c ∈ piece, isTerminator c = false)
    (hterminator : isTerminator terminator = true) : terminatorFrom masked place = some (place + piece.length) := by
  rw [terminatorFrom, hmasked, List.findIdx?_append, List.findIdx?_eq_none_iff.2 hpiece, List.findIdx?_cons,
    hterminator]
  simp

theorem terminatorFrom_mono {masked : List Char} {place past terminator : Nat}
    (h : terminatorFrom masked place = some terminator) (hplace : place ≤ past) (hpast : past ≤ terminator) :
    terminatorFrom masked past = some terminator := by
  rcases free_or_piece (masked.drop place) with hfree | ⟨piece, c, rest, hmasked, hpiece, hc⟩
  · rw [terminatorFrom_free hfree] at h
    exact absurd h (by simp)
  · rw [terminatorFrom_piece hmasked hpiece hc, Option.some.injEq] at h
    have hsplit : masked.drop place = piece.take (past - place) ++ (piece.drop (past - place) ++ c :: rest) := by
      rw [← List.append_assoc, List.take_append_drop, hmasked]
    have hlength : (piece.take (past - place)).length = past - place := by
      rw [List.length_take]
      omega
    have hdrop := drop_add_of_drop hsplit
    rw [hlength, Nat.add_sub_cancel' hplace] at hdrop
    rw [terminatorFrom_piece hdrop (fun d hd => hpiece d (List.mem_of_mem_drop hd)) hc, List.length_drop,
      Option.some.injEq]
    omega

/-- What holds wherever a step begins: no character in front joins on, and a kept terminator is either behind or the
first one from there on. -/
structure Resumable (masked : List Char) (place : Nat) (kept : Option Nat) : Prop where
  free : joinedAt masked place = false
  kept : ∀ terminator ∈ kept, place ≤ terminator → terminatorFrom masked place = some terminator

namespace Resumable

/-- The walk may go on behind the terminator that it keeps. -/
theorem of_behind {masked : List Char} {place : Nat} {kept : Option Nat} (hfree : joinedAt masked place = false)
    (hbehind : ∀ terminator ∈ kept, terminator < place) : Resumable masked place kept where
  free := hfree
  kept := fun terminator hmem hplace => absurd hplace (Nat.not_le.2 (hbehind terminator hmem))

variable {masked : List Char} {place : Nat} {kept : Option Nat} (h : Resumable masked place kept)
include h

/-- The kept terminator is the one that a fresh search finds. -/
theorem terminatorFor_eq (reuse : Bool) {past : Nat} (hpast : place ≤ past) :
    terminatorFor reuse kept masked past = terminatorFrom masked past := by
  cases kept with
  | none => rfl
  | some terminator =>
    simp only [terminatorFor]
    split
    · next hreuse =>
      rw [Bool.and_eq_true, decide_eq_true_eq] at hreuse
      exact (terminatorFrom_mono (h.kept terminator rfl (hpast.trans hreuse.2)) hpast hreuse.2).symm
    · rfl

end Resumable

/-- Without a terminator the walk ends, with a header or without. -/
theorem walkStep_free {masked : List Char} {place : Nat} {kept : Option Nat} (h : Resumable masked place kept)
    (hfree : ∀ c ∈ masked.drop place, isTerminator c = false) (reuse : Bool) (source : List Char) :
    walkStep reuse source masked place kept = .ended := by
  unfold walkStep
  split
  · rfl
  · next start header hheader =>
    have hbounds := headerBetween_bounds hheader
    have hpast : place ≤ start + header.width := by omega
    have hnone : terminatorFrom masked (start + header.width) = none := terminatorFrom_free fun c hmem =>
      hfree c ((List.drop_sublist_drop_left masked hpast).subset hmem)
    simp only [h.terminatorFor_eq reuse hpast, hnone]

/-! ### One step in a piece -/

section Piece

variable {masked piece rest : List Char} {terminator : Char} {place : Nat}
  (hmasked : masked.drop place = piece ++ terminator :: rest) (hterminator : isTerminator terminator = true)
include hmasked hterminator

/-- A piece without a header is passed over. -/
theorem headerBetween_no_header {joined : Bool} (hjoined : joinedAt masked place = joined)
    (hfind : findWordFrom Header.joins Header.read? [] joined piece = none) :
    headerBetween masked place masked.length = headerBetween masked (place + piece.length + 1) masked.length := by
  have hbehind : masked.drop (place + piece.length) = terminator :: rest := drop_add_of_drop hmasked
  have hrest : masked.drop (place + piece.length + 1) = rest := drop_succ_of_drop hbehind
  have hfree := joinedAt_succ (joins_of_isTerminator hterminator) hbehind
  rw [headerBetween, headerBetween, slice, slice, List.take_length, hmasked, hrest, hjoined, hfree,
    Header.find_append_terminator hterminator, hfind, Option.map_map]
  simp only
  congr 1
  funext found
  simp only [Function.comp_apply, List.length_append, List.length_cons, Prod.mk.injEq, and_true]
  omega

theorem headerBetween_header {joined : Bool} (hjoined : joinedAt masked place = joined) {passed : List Char}
    {header : Header} (hfind : findWordFrom Header.joins Header.read? [] joined piece = some (passed, header)) :
    headerBetween masked place masked.length = some (place + passed.length, header.extend (terminator :: rest)) := by
  rw [headerBetween, slice, List.take_length, hmasked, hjoined, Header.find_append_terminator hterminator, hfind]
  rfl

omit hterminator in
/-- Behind the first header of a piece stands its tail, and the name of the header joins on to it. -/
theorem drop_behind_header {joined : Bool} {passed : List Char} {header : Header}
    (hfind : findWordFrom Header.joins Header.read? [] joined piece = some (passed, header)) :
    masked.drop (place + (passed.length + header.width)) = header.tail ++ terminator :: rest ∧
      joinedAt masked (place + (passed.length + header.width)) = true := by
  obtain ⟨taken, rfl, hlength, hlast⟩ := Header.find_eq_some hfind
  rw [List.append_assoc] at hmasked
  rw [← hlength, joinedAt_add hmasked]
  refine ⟨drop_add_of_drop hmasked, ?_⟩
  revert hlast
  cases taken.getLast? with
  | none => exact fun hlast => absurd hlast (by simp)
  | some c => exact id

omit hterminator in
/-- At the terminator of its piece a header comes to what the scan makes of it. -/
theorem settle_piece (source : List Char) (start : Nat) (header : Header) :
    settle source masked (place + start) header (place + piece.length) =
      if terminator = ';' ∨ header.isDeclaration = false then
        .passed (place + piece.length + 1) (place + piece.length)
      else
        match closingFrom '\x7b' '\x7d' 1 0 rest with
        | none => .unterminated ⟨String.ofList header.name, place + piece.length⟩
        | some length =>
          .declared (declarationOf place start header length (source.drop (place + piece.length + 1)) rest)
            (place + piece.length + length + 2) (place + piece.length) := by
  have hat : masked[place + piece.length]? = some terminator := by
    rw [← List.head?_drop, drop_add_of_drop hmasked, List.head?_cons]
  have hrest : masked.drop (place + piece.length + 1) = rest := drop_succ_of_drop (drop_add_of_drop hmasked)
  have hclosing := closingFrom_add '\x7b' '\x7d' 1 0 (place + piece.length + 1) rest
  rw [Nat.zero_add] at hclosing
  rw [settle, hat, hrest, hclosing]
  simp only [Option.some.injEq]
  split
  · rfl
  · cases closingFrom '\x7b' '\x7d' 1 0 rest with
    | none => rfl
    | some length =>
      have hbody (text : List Char) : slice text (place + piece.length + 1) (length + (place + piece.length + 1)) =
          (text.drop (place + piece.length + 1)).take length := by
        rw [slice, List.drop_take, Nat.add_sub_cancel]
      have hplace : length + (place + piece.length + 1) + 1 = place + piece.length + length + 2 := by omega
      simp only [Option.map_some, hbody, hrest, hplace]
      rfl

/-- A step with a header in the piece: the walk goes on at the next header of the piece, or the header owns the
terminator. -/
theorem walkStep_header (hpiece : ∀ c ∈ piece, isTerminator c = false) (reuse : Bool) (source : List Char)
    {kept : Option Nat} (h : Resumable masked place kept) {passed : List Char} {header : Header}
    (hfind : findWordFrom Header.joins Header.read? [] false piece = some (passed, header)) :
    walkStep reuse source masked place kept =
      match findWordFrom Header.joins Header.read? [] true header.tail with
      | some (more, _) => .passed (place + (passed.length + header.width) + more.length) (place + piece.length)
      | none => settle source masked (place + passed.length) header (place + piece.length) := by
  obtain ⟨hbehind, hjoined⟩ := drop_behind_header hmasked hfind
  obtain ⟨taken, hsplit, htaken, -⟩ := Header.find_eq_some hfind
  have htail : ∀ c ∈ header.tail, isTerminator c = false := fun c hmem =>
    hpiece c (hsplit ▸ List.mem_append_right taken hmem)
  have hplace : place + (passed.length + header.width) + header.tail.length = place + piece.length := by
    rw [hsplit, List.length_append]
    omega
  have hslice := slice_of_drop hbehind
  have hfound := terminatorFrom_piece hbehind htail hterminator
  rw [hplace] at hslice hfound
  rw [walkStep, headerBetween_header hmasked hterminator h.free hfind]
  simp only [Header.extend, Nat.add_assoc place passed.length]
  rw [h.terminatorFor_eq reuse (Nat.le_add_right _ _), hfound]
  simp only [headerBetween, hslice, hjoined]
  cases findWordFrom Header.joins Header.read? [] true header.tail with
  | some found => rfl
  | none => rfl

end Piece

/-! ### The scan at a place -/

/-- The scan of what stands from a place on. -/
def scanAt (source masked : List Char) (place : Nat) : Scan :=
  scanFrom place (source.drop place) (masked.drop place)

section Scan

variable {masked piece rest : List Char} {terminator : Char} {place : Nat}
  (hmasked : masked.drop place = piece ++ terminator :: rest) (hpiece : ∀ c ∈ piece, isTerminator c = false)
  (hterminator : isTerminator terminator = true)
include hmasked hpiece hterminator

theorem scanAt_passed (h : declaredBy terminator piece = none) (source : List Char) :
    scanAt source masked place = scanAt source masked (place + piece.length + 1) := by
  have hrest : masked.drop (place + piece.length + 1) = rest := drop_succ_of_drop (drop_add_of_drop hmasked)
  rw [scanAt, scanAt, hmasked, scanFrom_passed hpiece hterminator h, hrest, List.drop_drop, Nat.add_assoc]

theorem scanAt_declared {start length : Nat} {header : Header}
    (h : declaredBy terminator piece = some (start, header)) (hclose : closingFrom '\x7b' '\x7d' 1 0 rest = some length)
    (source : List Char) :
    scanAt source masked place =
      ⟨declarationOf place start header length (source.drop (place + piece.length + 1)) rest ::
          (scanAt source masked (place + piece.length + length + 2)).declarations,
        (scanAt source masked (place + piece.length + length + 2)).failure⟩ := by
  have hrest : masked.drop (place + piece.length + 1) = rest := drop_succ_of_drop (drop_add_of_drop hmasked)
  have hplace : place + piece.length + length + 2 = place + piece.length + 1 + (length + 1) := by omega
  have hmore : masked.drop (place + piece.length + length + 2) = rest.drop (length + 1) := by
    rw [hplace, ← List.drop_drop, hrest]
  have hinside : (source.drop place).drop (piece.length + 1) = source.drop (place + piece.length + 1) := by
    rw [List.drop_drop, Nat.add_assoc]
  have hafter : (source.drop (place + piece.length + 1)).drop (length + 1) =
      source.drop (place + piece.length + length + 2) := by
    rw [List.drop_drop, hplace]
  rw [scanAt, scanAt, hmasked, scanFrom_declared hpiece hterminator h hclose, hmore, hinside, hafter]

/-- The scan may begin behind any part of the piece that its last header does not need. -/
theorem scanAt_skip {skipped here : List Char} (hsplit : piece = skipped ++ here)
    (hlast : Header.last? piece = (Header.last? here).map fun (start, last) => (skipped.length + start, last))
    (source : List Char) : scanAt source masked place = scanAt source masked (place + skipped.length) := by
  have hdeclared : declaredBy terminator piece =
      (declaredBy terminator here).map fun (start, header) => (skipped.length + start, header) := by
    rw [declaredBy, declaredBy, hlast]
    split
    · rw [Option.filter_map]
      rfl
    · rfl
  have hlength : piece.length = skipped.length + here.length := by rw [hsplit, List.length_append]
  have hhere : ∀ c ∈ here, isTerminator c = false := fun c hmem => hpiece c (hsplit ▸ List.mem_append_right _ hmem)
  have hbehind : masked.drop (place + skipped.length) = here ++ terminator :: rest := by
    rw [hsplit, List.append_assoc] at hmasked
    exact drop_add_of_drop hmasked
  rw [scanAt, scanAt, hmasked, hbehind, scanFrom_piece hpiece hterminator, scanFrom_piece hhere hterminator, hdeclared,
    hlength]
  cases declaredBy terminator here with
  | none => simp only [Option.map_none, List.drop_drop, Nat.add_assoc]
  | some found => simp only [Option.map_some, declarationOf, List.drop_drop, Nat.add_assoc]

end Scan

/-! ### Where the walk goes on -/

section Places

variable {masked piece rest : List Char} {terminator : Char} {place : Nat}
  (hmasked : masked.drop place = piece ++ terminator :: rest) (hterminator : isTerminator terminator = true)
include hmasked hterminator

/-- The walk may go on behind a piece. -/
theorem Resumable.past_piece {kept : Option Nat} (hkept : ∀ found ∈ kept, found ≤ place + piece.length) :
    Resumable masked (place + piece.length + 1) kept :=
  .of_behind (joinedAt_succ (joins_of_isTerminator hterminator) (drop_add_of_drop hmasked)) fun found hmem =>
    Nat.lt_succ_of_le (hkept found hmem)

omit hterminator in
/-- The walk may go on behind a body. -/
theorem Resumable.past_body {length : Nat} (hclose : closingFrom '\x7b' '\x7d' 1 0 rest = some length) :
    Resumable masked (place + piece.length + length + 2) (some (place + piece.length)) := by
  obtain ⟨inside, after, rfl, rfl, -⟩ := exists_balanced_of_closingFrom (by decide) hclose
  have hbody : masked.drop (place + piece.length + 1) = inside ++ '\x7d' :: after :=
    drop_succ_of_drop (drop_add_of_drop hmasked)
  have hplace : place + piece.length + inside.length + 2 = place + piece.length + 1 + inside.length + 1 := by omega
  rw [hplace]
  refine .of_behind (joinedAt_succ (by decide) (drop_add_of_drop hbody)) fun found hmem => ?_
  obtain rfl := Option.some.inj hmem
  omega

/-- The walk may go on at the header behind the first one of a piece. -/
theorem Resumable.at_inner (hpiece : ∀ c ∈ piece, isTerminator c = false) {passed more : List Char}
    {header inner : Header} (hfind : findWordFrom Header.joins Header.read? [] false piece = some (passed, header))
    (hmore : findWordFrom Header.joins Header.read? [] true header.tail = some (more, inner)) :
    Resumable masked (place + (passed.length + header.width) + more.length) (some (place + piece.length)) := by
  obtain ⟨hbehind, hjoined⟩ := drop_behind_header hmasked hfind
  obtain ⟨taken, hsplit, htaken, -⟩ := Header.find_eq_some hfind
  obtain ⟨here, htail, -, hfree⟩ := findWordFrom_eq_some hmore
  rw [htail, List.append_assoc] at hbehind
  constructor
  case free => rw [joinedAt_add hbehind, hjoined, hfree]
  case kept =>
    intro found hmem _
    obtain rfl := Option.some.inj hmem
    have hhere : ∀ c ∈ here, isTerminator c = false := by
      intro c hc
      refine hpiece c ?_
      rw [hsplit, htail]
      exact List.mem_append_right _ (List.mem_append_right _ hc)
    rw [terminatorFrom_piece (drop_add_of_drop hbehind) hhere hterminator, hsplit, htail]
    simp only [List.length_append, Option.some.injEq]
    omega

/-- A terminator that is kept does not lie behind the first one. -/
theorem Resumable.kept_le {kept : Option Nat} (h : Resumable masked place kept)
    (hpiece : ∀ c ∈ piece, isTerminator c = false) : ∀ found ∈ kept, found ≤ place + piece.length := by
  intro found hmem
  by_contra hlater
  have hfirst := terminatorFrom_piece hmasked hpiece hterminator
  rw [h.kept found hmem (by omega), Option.some.injEq] at hfirst
  omega

end Places

/-! ### The walk and the scan -/

/-- From every place where a step may begin, the walk finds what the scan finds. -/
theorem walk_eq_scanAt (reuse : Bool) (source masked : List Char) {place : Nat} {kept : Option Nat}
    (h : Resumable masked place kept) : walk reuse source masked place kept = scanAt source masked place := by
  rcases free_or_piece (masked.drop place) with hfree | ⟨piece, terminator, rest, hmasked, hpiece, hterminator⟩
  · rw [scanAt, scanFrom_free hfree, walk_step, walkStep_free h hfree]
  · have hwithin : place + piece.length < masked.length := by
      have := congrArg List.length (drop_add_of_drop hmasked)
      simp only [List.length_drop, List.length_cons] at this
      omega
    have hpassed (kept : Option Nat) (hkept : ∀ found ∈ kept, found ≤ place + piece.length)
        (hnone : declaredBy terminator piece = none) :
        walk reuse source masked (place + piece.length + 1) kept = scanAt source masked place := by
      rw [walk_eq_scanAt reuse source masked (.past_piece hmasked hterminator hkept),
        scanAt_passed hmasked hpiece hterminator hnone]
    cases hfind : findWordFrom Header.joins Header.read? [] false piece with
    | none =>
      -- the first header stands behind the piece, where the walk finds it just as well
      have hstep : walkStep reuse source masked place kept =
          walkStep reuse source masked (place + piece.length + 1) kept := by
        rw [walkStep, walkStep, headerBetween_no_header hmasked hterminator h.free hfind]
      have hnone : declaredBy terminator piece = none := by
        rw [declaredBy, Header.last?_eq_find, hfind, Option.filter_none, ite_self]
      rw [walk_step, hstep, ← walk_step, hpassed kept (h.kept_le hmasked hterminator hpiece) hnone]
    | some found =>
      obtain ⟨passed, header⟩ := found
      have hstep := walkStep_header hmasked hterminator hpiece reuse source h hfind
      cases hmore : findWordFrom Header.joins Header.read? [] true header.tail with
      | some later =>
        obtain ⟨more, inner⟩ := later
        obtain ⟨skipped, here, hsplit, hskipped, hne, hlast⟩ := Header.last?_inner hfind hmore
        have hpos := List.length_pos_iff.2 hne
        have hinner := Resumable.at_inner hmasked hterminator hpiece hfind hmore
        have hlength : piece.length = skipped.length + here.length := by rw [hsplit, List.length_append]
        simp only [hmore, Nat.add_assoc place, ← hskipped] at hstep hinner
        rw [walk_step, hstep, scanAt_skip hmasked hpiece hterminator hsplit hlast]
        exact walk_eq_scanAt reuse source masked hinner
      | none =>
        -- no other header follows, so this one is the last of the piece and the terminator is its own
        have hlast := Header.last?_eq_find piece
        simp only [hfind, hmore] at hlast hstep
        rw [settle_piece hmasked] at hstep
        by_cases hnothing : terminator = ';' ∨ header.isDeclaration = false
        · have hnone : declaredBy terminator piece = none := by
            rw [declaredBy, hlast]
            rcases hnothing with rfl | hnothing
            · rfl
            · simp only [Option.filter_some, hnothing, Bool.false_eq_true, if_false, ite_self]
          rw [walk_step, hstep, if_pos hnothing]
          exact hpassed _ (fun found hmem => (Option.some.inj hmem).ge) hnone
        · have hdeclared : declaredBy terminator piece = some (passed.length, header) := by
            rw [not_or, Bool.not_eq_false] at hnothing
            refine declaredBy_eq_some_iff.2 ⟨?_, hlast, hnothing.2⟩
            simpa only [isTerminator, Bool.or_eq_true, beq_iff_eq, hnothing.1, or_false] using hterminator
          rw [if_neg hnothing] at hstep
          cases hclose : closingFrom '\x7b' '\x7d' 1 0 rest with
          | none =>
            rw [hclose] at hstep
            rw [walk_step, hstep, scanAt, hmasked, scanFrom_unterminated hpiece hterminator hdeclared hclose]
          | some length =>
            rw [hclose] at hstep
            rw [walk_step, hstep, scanAt_declared hmasked hpiece hterminator hdeclared hclose]
            simp only [walk_eq_scanAt reuse source masked (.past_body hmasked hclose)]
termination_by masked.length - place

/-- The scan finds the declarations that the walk finds from the beginning of the text on, and stops where the walk
stops, whether the walk keeps terminators or searches for each of them afresh. -/
theorem scan_eq_walk (reuse : Bool) (source masked : List Char) :
    scan source masked = walk reuse source masked 0 none := by
  have hstart : Resumable masked 0 none := .of_behind rfl (by simp)
  exact (walk_eq_scanAt reuse source masked hstart).symm

end ContractMigration.Solidity
