import ContractMigration.Proofs.Json.Doubles

/-!
# Values that are written and read

A value whose integers are within the limits, whose objects have no key twice and which is not nested too deep
(`Readable`) is read back from what is written for it, in every style that separates with commas and colons and blanks
behind them (`parseWithin_text`). Each number of double precision comes back as what is read of its shortest form
(`reread`), and all else as itself; a number that survives by itself comes back as itself, too (`survives_iff`). The
induction is on the value; a step of the reader for each constructor is a lemma of its own, with whatever stands behind
the part that is read.
-/

namespace ContractMigration.Json

open Text

mutual

/-- What a reader with limits reads back, inside so many lists and objects. -/
def Readable (limits : Limits) : (depth : Nat) → Json → Prop
  | _, null => True
  | _, bool _ => True
  | _, int n => limits.integerExcess? (Nat.toDigits 10 n.natAbs).length = none
  | _, real _ => True
  | _, str _ => True
  | depth, arr items => limits.allowsNesting depth = true ∧ ReadableItems limits (depth + 1) items
  | depth, obj members =>
    limits.allowsNesting depth = true ∧ (members.map Prod.fst).Nodup ∧ ReadableMembers limits (depth + 1) members

/-- All items are read back. -/
def ReadableItems (limits : Limits) : (depth : Nat) → List Json → Prop
  | _, [] => True
  | depth, item :: rest => Readable limits depth item ∧ ReadableItems limits depth rest

/-- All values of the members are read back. -/
def ReadableMembers (limits : Limits) : (depth : Nat) → List (CodeText × Json) → Prop
  | _, [] => True
  | depth, (_, value) :: rest => Readable limits depth value ∧ ReadableMembers limits depth rest

end

mutual

/-- The value that is read of what is written for a value. -/
def reread : Json → Json
  | null => null
  | bool b => bool b
  | int n => int n
  | real x => real (rereadDouble x)
  | str s => str s
  | arr items => arr (rereadItems items)
  | obj members => obj (rereadMembers members)

/-- The items that are read of what is written for items. -/
def rereadItems : List Json → List Json
  | [] => []
  | item :: rest => reread item :: rereadItems rest

/-- The members that are read of what is written for members. -/
def rereadMembers : List (CodeText × Json) → List (CodeText × Json)
  | [] => []
  | (key, value) :: rest => (key, reread value) :: rereadMembers rest

end

theorem Limits.allowsNesting_of_le {limits : Limits} {depth deepest : Nat} (h : limits.allowsNesting deepest = true)
    (hle : depth ≤ deepest) : limits.allowsNesting depth = true := by
  unfold allowsNesting at h ⊢
  split at h
  next most =>
    simp only [decide_eq_true_eq] at h ⊢
    omega
  next => rfl

theorem readableItems_map {α : Type} {limits : Limits} {depth : Nat} {write : α → Json} {values : List α}
    (h : ∀ a ∈ values, Readable limits depth (write a)) : ReadableItems limits depth (values.map write) := by
  induction values with
  | nil => simp [ReadableItems]
  | cons a rest ih =>
    obtain ⟨hfirst, hrest⟩ := List.forall_mem_cons.1 h
    rw [List.map_cons, ReadableItems]
    exact ⟨hfirst, ih hrest⟩

theorem readableMembers_map {α : Type} {limits : Limits} {depth : Nat} {key : α → CodeText} {write : α → Json}
    {values : List α} (h : ∀ a ∈ values, Readable limits depth (write a)) :
    ReadableMembers limits depth (values.map fun a => (key a, write a)) := by
  induction values with
  | nil => simp [ReadableMembers]
  | cons a rest ih =>
    obtain ⟨hfirst, hrest⟩ := List.forall_mem_cons.1 h
    rw [List.map_cons, ReadableMembers]
    exact ⟨hfirst, ih hrest⟩

theorem rereadItems_map {α : Type} {write : α → Json} {values : List α}
    (h : ∀ a ∈ values, reread (write a) = write a) : rereadItems (values.map write) = values.map write := by
  induction values with
  | nil => simp [rereadItems]
  | cons a rest ih =>
    obtain ⟨hfirst, hrest⟩ := List.forall_mem_cons.1 h
    rw [List.map_cons, rereadItems, hfirst, ih hrest]

theorem rereadMembers_map {α : Type} {key : α → CodeText} {write : α → Json} {values : List α}
    (h : ∀ a ∈ values, reread (write a) = write a) :
    rereadMembers (values.map fun a => (key a, write a)) = values.map fun a => (key a, write a) := by
  induction values with
  | nil => simp [rereadMembers]
  | cons a rest ih =>
    obtain ⟨hfirst, hrest⟩ := List.forall_mem_cons.1 h
    rw [List.map_cons, rereadMembers, hfirst, ih hrest]

/-- The separators are a comma and a colon, with nothing but blanks behind them. -/
structure Style.Spaced (style : Style) : Prop where
  item : ∃ blanks, style.itemSeparator = ',' :: blanks ∧ ∀ c ∈ blanks, isSpace c = true
  key : ∃ blanks, style.keySeparator = ':' :: blanks ∧ ∀ c ∈ blanks, isSpace c = true

theorem Style.spaced_compact : Style.compact.Spaced :=
  ⟨⟨[], rfl, fun _ hc => absurd hc List.not_mem_nil⟩, ⟨[], rfl, fun _ hc => absurd hc List.not_mem_nil⟩⟩

/-! ### Blanks -/

/-- The text does not begin with a blank. -/
def Begun (text : List Char) : Prop :=
  ∀ c ∈ text.head?, isSpace c = false

theorem begun_cons {c : Char} {text : List Char} (h : isSpace c = false) : Begun (c :: text) := by
  simpa [Begun] using h

theorem skipSpace_of_begun {text : List Char} (h : Begun text) (offset : Nat) :
    skipSpace offset text = (offset, text) := by
  cases text with
  | nil => rfl
  | cons c text => rw [skipSpace, if_neg (by simp [h c rfl])]

theorem skipSpace_blanks {blanks text : List Char} (hblanks : ∀ c ∈ blanks, isSpace c = true) (h : Begun text)
    (offset : Nat) : skipSpace offset (blanks ++ text) = (offset + blanks.length, text) := by
  induction blanks generalizing offset with
  | nil => exact skipSpace_of_begun h offset
  | cons c blanks ih =>
    obtain ⟨hc, hblanks⟩ := List.forall_mem_cons.1 hblanks
    rw [List.cons_append, skipSpace, if_pos hc, ih hblanks, List.length_cons, Nat.add_right_comm, Nat.add_assoc]

/-! ### Steps of the reader -/

section Step

variable {limits : Limits} {fuel depth : Nat} {rest : List Char}

theorem readValue_scalar {c : Char} (hc : isScalarChar c = true) (offset : Nat) (tail : List Char) :
    readValue limits (fuel + 1) depth offset (c :: tail) = readScalar limits offset (c :: tail) := by
  have hother {d : Char} (hd : isScalarChar d = false) : ¬ (c == d) = true := by
    rw [beq_iff_eq]
    rintro rfl
    exact absurd hc (by simp [hd])
  rw [readValue, if_neg (hother (by decide)), if_neg (hother (by decide)), if_neg (hother (by decide))]

theorem gives_scalar {text : List Char} {value : Json} (hne : text ≠ []) (hchars : ∀ c ∈ text, isScalarChar c = true)
    (hgives : Gives (readScalar limits) (text ++ rest) value rest) :
    Gives (readValue limits (fuel + 1) depth) (text ++ rest) value rest := by
  intro offset
  obtain ⟨c, tail, rfl⟩ := List.exists_cons_of_ne_nil hne
  rw [List.cons_append, readValue_scalar (hchars c (List.mem_cons_self ..))]
  exact hgives offset

theorem gives_string (asciiOnly : Bool) (s : CodeText) :
    Gives (readValue limits (fuel + 1) depth) (stringText asciiOnly s ++ rest) (.str s) rest := by
  intro offset
  obtain ⟨behind, hbehind⟩ := gives_stringText asciiOnly s rest (offset + 1)
  refine ⟨behind, ?_⟩
  simp [readValue, stringText, hbehind]

theorem gives_list (hdepth : limits.allowsNesting depth = true) {text : List Char} {value : Json}
    (hbegun : Begun text) (hclose : text.head? ≠ some ']')
    (hitems : Gives (readItems limits fuel (depth + 1) []) text value rest) :
    Gives (readValue limits (fuel + 1) depth) ('[' :: text) value rest := by
  intro offset
  obtain ⟨behind, hbehind⟩ := hitems (offset + 1)
  refine ⟨behind, ?_⟩
  simp only [readValue, hdepth, skipSpace_of_begun hbegun]
  rw [if_neg (by decide), if_pos (by decide), if_pos trivial]
  split
  next hempty =>
    obtain ⟨-, rfl⟩ := Prod.mk.inj hempty
    exact absurd rfl hclose
  next hfull =>
    obtain ⟨rfl, rfl⟩ := Prod.mk.inj hfull
    exact hbehind

theorem gives_object (hdepth : limits.allowsNesting depth = true) {text : List Char} {value : Json}
    (hbegun : Begun text) (hclose : text.head? ≠ some '\x7d')
    (hmembers : Gives (readMembers limits fuel (depth + 1) []) text value rest) :
    Gives (readValue limits (fuel + 1) depth) ('\x7b' :: text) value rest := by
  intro offset
  obtain ⟨behind, hbehind⟩ := hmembers (offset + 1)
  refine ⟨behind, ?_⟩
  simp only [readValue, hdepth, skipSpace_of_begun hbegun]
  rw [if_neg (by decide), if_neg (by decide), if_pos (by decide), if_pos trivial]
  split
  next hempty =>
    obtain ⟨-, rfl⟩ := Prod.mk.inj hempty
    exact absurd rfl hclose
  next hfull =>
    obtain ⟨rfl, rfl⟩ := Prod.mk.inj hfull
    exact hbehind

theorem gives_no_items (hdepth : limits.allowsNesting depth = true) :
    Gives (readValue limits (fuel + 1) depth) ('[' :: ']' :: rest) (.arr []) rest := by
  intro offset
  exact ⟨offset + 2, by simp [readValue, hdepth, skipSpace_of_begun (begun_cons (c := ']') (by decide))]⟩

theorem gives_no_members (hdepth : limits.allowsNesting depth = true) :
    Gives (readValue limits (fuel + 1) depth) ('\x7b' :: '\x7d' :: rest) (.obj []) rest := by
  intro offset
  exact ⟨offset + 2, by simp [readValue, hdepth, skipSpace_of_begun (begun_cons (c := '\x7d') (by decide))]⟩

/-! ### Items and members -/

variable {done : List Json} {members : List (CodeText × Json)} {blanks : List Char}

theorem gives_last_item {text : List Char} {item : Json}
    (hitem : Gives (readValue limits fuel depth) text item (']' :: rest)) :
    Gives (readItems limits (fuel + 1) depth done) text (.arr (item :: done).reverse) rest := by
  intro offset
  obtain ⟨behind, hbehind⟩ := hitem offset
  refine ⟨behind + 1, ?_⟩
  rw [readItems, hbehind]
  simp only [skipSpace_of_begun (begun_cons (c := ']') (by decide))]

theorem gives_next_item {text more : List Char} {item value : Json} (hblanks : ∀ c ∈ blanks, isSpace c = true)
    (hbegun : Begun more) (hitem : Gives (readValue limits fuel depth) text item (',' :: (blanks ++ more)))
    (hmore : Gives (readItems limits fuel depth (item :: done)) more value rest) :
    Gives (readItems limits (fuel + 1) depth done) text value rest := by
  intro offset
  obtain ⟨behind, hbehind⟩ := hitem offset
  obtain ⟨last, hlast⟩ := hmore (behind + 1 + blanks.length)
  refine ⟨last, ?_⟩
  rw [readItems, hbehind]
  simp only [skipSpace_of_begun (begun_cons (c := ',') (by decide)), skipSpace_blanks hblanks hbegun, hlast]

theorem gives_last_member {text valueText : List Char} {key : CodeText} {value : Json}
    (hkey : Gives readString text key (':' :: (blanks ++ valueText))) (hblanks : ∀ c ∈ blanks, isSpace c = true)
    (hbegun : Begun valueText) (hvalue : Gives (readValue limits fuel depth) valueText value ('\x7d' :: rest)) :
    Gives (readMembers limits (fuel + 1) depth members) ('"' :: text) (.obj (setMember members key value)) rest := by
  intro offset
  obtain ⟨colon, hcolon⟩ := hkey (offset + 1)
  obtain ⟨behind, hbehind⟩ := hvalue (colon + 1 + blanks.length)
  refine ⟨behind + 1, ?_⟩
  simp only [readMembers, hcolon, skipSpace_of_begun (begun_cons (c := ':') (by decide)),
    skipSpace_blanks hblanks hbegun, hbehind, skipSpace_of_begun (begun_cons (c := '\x7d') (by decide))]

theorem gives_next_member {text valueText more gap : List Char} {key : CodeText} {value object : Json}
    (hkey : Gives readString text key (':' :: (blanks ++ valueText))) (hblanks : ∀ c ∈ blanks, isSpace c = true)
    (hbegun : Begun valueText) (hvalue : Gives (readValue limits fuel depth) valueText value (',' :: (gap ++ more)))
    (hgap : ∀ c ∈ gap, isSpace c = true) (hmoreBegun : Begun more)
    (hmore : Gives (readMembers limits fuel depth (setMember members key value)) more object rest) :
    Gives (readMembers limits (fuel + 1) depth members) ('"' :: text) object rest := by
  intro offset
  obtain ⟨colon, hcolon⟩ := hkey (offset + 1)
  obtain ⟨behind, hbehind⟩ := hvalue (colon + 1 + blanks.length)
  obtain ⟨last, hlast⟩ := hmore (behind + 1 + gap.length)
  refine ⟨last, ?_⟩
  simp only [readMembers, hcolon, skipSpace_of_begun (begun_cons (c := ':') (by decide)),
    skipSpace_blanks hblanks hbegun, hbehind, skipSpace_of_begun (begun_cons (c := ',') (by decide)),
    skipSpace_blanks hgap hmoreBegun, hlast]

end Step

theorem setMember_fresh {members : List (CodeText × Json)} {key : CodeText} (h : key ∉ members.map Prod.fst)
    (value : Json) :
    setMember members key value = members ++ [(key, value)] := by
  have hany : members.any (·.1 == key) = false := List.any_eq_false.2 fun member hmember hkey =>
    h (List.mem_map.2 ⟨member, hmember, beq_iff_eq.1 hkey⟩)
  rw [setMember, hany]
  rfl

/-! ### Numbers that survive -/

theorem scalarChars_integerText (n : Int) : ∀ c ∈ integerText n, isScalarChar c = true := by
  intro c hc
  rcases chars_integerText n c hc with hdigit | rfl
  · exact scalarChar_of_digit hdigit
  · decide

theorem integerText_ne_nil (n : Int) : integerText n ≠ [] := by
  unfold integerText
  split
  · exact List.cons_ne_nil _ _
  · exact Nat.toDigits_ne_nil

theorem begun_of_scalarChars {text : List Char} (h : ∀ c ∈ text, isScalarChar c = true) : Begun text := by
  intro c hc
  have hchar := h c (List.mem_of_head? hc)
  by_contra hblank
  rw [Bool.not_eq_false] at hblank
  simp only [isSpace, Bool.or_eq_true, beq_iff_eq] at hblank
  rcases hblank with ((rfl | rfl) | rfl) | rfl <;> exact absurd hchar (by decide)

theorem gives_word {limits : Limits} {fuel depth : Nat} {rest : List Char} (hrest : Delimited rest) {word : List Char}
    {value : Json} (hne : word ≠ []) (hword : wordAt? word = some (value, word.length, []))
    (hchars : word.all isScalarChar = true) :
    Gives (readValue limits (fuel + 1) depth) (word ++ rest) value rest := by
  have halone : Gives (readScalar limits) word value [] := fun offset =>
    ⟨offset + word.length, by rw [readScalar_eq, hword]⟩
  exact gives_scalar hne (List.all_eq_true.1 hchars) (halone.append hrest)

theorem itemsText_cons_cons (style : Style) (item next : Json) (items : List Json) :
    itemsText style (item :: next :: items) =
      text style item ++ (style.itemSeparator ++ itemsText style (next :: items)) := by
  simp [itemsText]

theorem membersText_cons_cons (style : Style) (key : CodeText) (value : Json) (next : CodeText × Json)
    (members : List (CodeText × Json)) :
    membersText style ((key, value) :: next :: members) =
      stringText style.asciiOnly key ++ (style.keySeparator ++ (text style value ++
        (style.itemSeparator ++ membersText style (next :: members)))) := by
  simp [membersText]

theorem stringText_append (asciiOnly : Bool) (s : CodeText) (more : List Char) :
    stringText asciiOnly s ++ more = '"' :: (s.points.flatMap (escapedPoint asciiOnly) ++ '"' :: more) := by
  simp [stringText]

/-- What is written for the members of an object begins with a quote. -/
theorem exists_membersText_cons (style : Style) (member : CodeText × Json) (members : List (CodeText × Json)) :
    ∃ tail, membersText style (member :: members) = '"' :: tail := by
  obtain ⟨key, value⟩ := member
  cases members with
  | nil => exact ⟨_, by rw [membersText, stringText_append]⟩
  | cons next members => exact ⟨_, by rw [membersText_cons_cons, stringText_append]⟩

/-- What is written for a value begins with none of the characters that the reader passes over or stops at. -/
theorem exists_text_cons (style : Style) (json : Json) :
    ∃ c tail, text style json = c :: tail ∧ isSpace c = false ∧ c ≠ ']' := by
  have hscalar {letters : List Char} (hne : letters ≠ []) (hchars : ∀ c ∈ letters, isScalarChar c = true) :
      ∃ c tail, letters = c :: tail ∧ isSpace c = false ∧ c ≠ ']' := by
    obtain ⟨c, tail, rfl⟩ := List.exists_cons_of_ne_nil hne
    refine ⟨c, tail, rfl, begun_of_scalarChars hchars c rfl, ?_⟩
    rintro rfl
    exact absurd (hchars ']' (List.mem_cons_self ..)) (by decide)
  cases json with
  | null => exact ⟨'n', _, by rw [text]; rfl, by decide, by decide⟩
  | bool b =>
    rw [text]
    cases b
    · exact ⟨'f', _, rfl, by decide, by decide⟩
    · exact ⟨'t', _, rfl, by decide, by decide⟩
  | int n =>
    rw [text]
    exact hscalar (integerText_ne_nil n) (scalarChars_integerText n)
  | real x =>
    rw [text]
    exact hscalar (shortest_ne_nil x) (scalarChars_shortest x)
  | str s => exact ⟨'"', _, by rw [text, stringText]; rfl, by decide, by decide⟩
  | arr items => exact ⟨'[', _, by rw [text]; rfl, by decide, by decide⟩
  | obj members => exact ⟨'\x7b', _, by rw [text]; rfl, by decide, by decide⟩

theorem exists_itemsText_cons (style : Style) (item : Json) (items : List Json) :
    ∃ c tail, itemsText style (item :: items) = c :: tail ∧ isSpace c = false ∧ c ≠ ']' := by
  obtain ⟨c, tail, hcons, hopens⟩ := exists_text_cons style item
  cases items with
  | nil => exact ⟨c, tail, by rw [itemsText, hcons], hopens⟩
  | cons next items => exact ⟨c, _, by rw [itemsText_cons_cons, hcons, List.cons_append], hopens⟩

theorem begun_text (style : Style) (json : Json) (rest : List Char) : Begun (text style json ++ rest) := by
  obtain ⟨c, tail, hcons, hspace, -⟩ := exists_text_cons style json
  rw [hcons, List.cons_append]
  exact begun_cons hspace

theorem exists_fuel {letters : List Char} (hne : letters ≠ []) {fuel : Nat} (hfuel : 2 * letters.length ≤ fuel) :
    ∃ less, fuel = less + 1 := by
  have hpos := List.length_pos_iff.2 hne
  exact Nat.exists_eq_add_one_of_ne_zero (by omega)

theorem begun_itemsText (style : Style) (item : Json) (items : List Json) (rest : List Char) :
    Begun (itemsText style (item :: items) ++ rest) := by
  obtain ⟨c, tail, hcons, hspace, -⟩ := exists_itemsText_cons style item items
  rw [hcons, List.cons_append]
  exact begun_cons hspace

theorem key_not_mem {done members : List (CodeText × Json)} {key : CodeText} {value : Json}
    (h : ((done ++ (key, value) :: members).map Prod.fst).Nodup) : key ∉ done.map Prod.fst := by
  rw [List.map_append, List.map_cons] at h
  exact fun hkey => (List.nodup_append.1 h).2.2 key hkey key (List.mem_cons_self ..) rfl

-- A list or an object takes one unit of fuel for itself and one for each part, and each of these has a character of its
-- own in the text: a bracket or a separator. So two units for each character are enough.
mutual

theorem gives_text {limits : Limits} {style : Style} (hstyle : style.Spaced) :
    (json : Json) → (depth fuel : Nat) → Readable limits depth json → 2 * (text style json).length ≤ fuel →
      (rest : List Char) → Delimited rest →
      Gives (readValue limits fuel depth) (text style json ++ rest) json.reread rest
  | .null, depth, fuel, _, hfuel, rest, hrest => by
    rw [text] at hfuel ⊢
    obtain ⟨less, rfl⟩ := exists_fuel (by decide) hfuel
    exact gives_word hrest (by decide) rfl (by decide)
  | .bool true, depth, fuel, _, hfuel, rest, hrest => by
    rw [text] at hfuel ⊢
    obtain ⟨less, rfl⟩ := exists_fuel (by decide) hfuel
    exact gives_word hrest (by decide) rfl (by decide)
  | .bool false, depth, fuel, _, hfuel, rest, hrest => by
    rw [text] at hfuel ⊢
    obtain ⟨less, rfl⟩ := exists_fuel (by decide) hfuel
    exact gives_word hrest (by decide) rfl (by decide)
  | .int n, depth, fuel, h, hfuel, rest, hrest => by
    rw [Readable] at h
    rw [text] at hfuel ⊢
    obtain ⟨less, rfl⟩ := exists_fuel (integerText_ne_nil n) hfuel
    exact gives_scalar (integerText_ne_nil n) (scalarChars_integerText n) (gives_integerText h hrest)
  | .real x, depth, fuel, _, hfuel, rest, hrest => by
    rw [text] at hfuel ⊢
    rw [reread]
    obtain ⟨less, rfl⟩ := exists_fuel (shortest_ne_nil x) hfuel
    exact gives_scalar (shortest_ne_nil x) (scalarChars_shortest x) (gives_shortest x limits hrest)
  | .str s, depth, fuel, _, hfuel, rest, hrest => by
    rw [text] at hfuel ⊢
    obtain ⟨less, rfl⟩ := exists_fuel (by simp [stringText]) hfuel
    exact gives_string style.asciiOnly s
  | .arr [], depth, fuel, h, hfuel, rest, hrest => by
    rw [Readable] at h
    rw [text] at hfuel ⊢
    obtain ⟨less, rfl⟩ := exists_fuel (by simp) hfuel
    exact gives_no_items h.1
  | .arr (item :: items), depth, fuel, h, hfuel, rest, hrest => by
    rw [Readable] at h
    obtain ⟨c, tail, hcons, hspace, hclose⟩ := exists_itemsText_cons style item items
    rw [text, List.length_append, List.length_cons, List.length_singleton] at hfuel
    rw [text, List.append_assoc, List.cons_append, List.singleton_append]
    obtain ⟨less, rfl⟩ := Nat.exists_eq_add_one_of_ne_zero (show fuel ≠ 0 by omega)
    have hitems := gives_items hstyle (item :: items) (List.cons_ne_nil _ _) (depth + 1) less h.2 (by omega) [] rest
    refine gives_list h.1 ?_ ?_ hitems
    · rw [hcons]
      exact begun_cons hspace
    · rw [hcons]
      simpa using hclose
  | .obj [], depth, fuel, h, hfuel, rest, hrest => by
    rw [Readable] at h
    rw [text] at hfuel ⊢
    obtain ⟨less, rfl⟩ := exists_fuel (by simp) hfuel
    exact gives_no_members h.1
  | .obj (member :: members), depth, fuel, h, hfuel, rest, hrest => by
    rw [Readable] at h
    obtain ⟨tail, hcons⟩ := exists_membersText_cons style member members
    rw [text, List.length_append, List.length_cons, List.length_singleton] at hfuel
    rw [text, List.append_assoc, List.cons_append, List.singleton_append]
    obtain ⟨less, rfl⟩ := Nat.exists_eq_add_one_of_ne_zero (show fuel ≠ 0 by omega)
    have hmembers := gives_members hstyle (member :: members) (List.cons_ne_nil _ _) (depth + 1) less h.2.2 (by omega)
      [] h.2.1 rest
    refine gives_object h.1 ?_ ?_ hmembers
    · rw [hcons]
      exact begun_cons (by decide)
    · rw [hcons]
      simp

theorem gives_items {limits : Limits} {style : Style} (hstyle : style.Spaced) :
    (items : List Json) → items ≠ [] → (depth fuel : Nat) → ReadableItems limits depth items →
      2 * (itemsText style items).length + 1 ≤ fuel → (done : List Json) → (rest : List Char) →
      Gives (readItems limits fuel depth done) (itemsText style items ++ ']' :: rest) 
        (.arr (done.reverse ++ rereadItems items)) rest
  | [], hne, _, _, _, _, _, _ => absurd rfl hne
  | [item], _, depth, fuel, h, hfuel, done, rest => by
    rw [ReadableItems] at h
    rw [itemsText] at hfuel ⊢
    obtain ⟨less, rfl⟩ := Nat.exists_eq_add_one_of_ne_zero (show fuel ≠ 0 by omega)
    have hitem := gives_text hstyle item depth less h.1 (by omega) (']' :: rest) (delimited_cons (by decide))
    rw [rereadItems, rereadItems, ← List.reverse_cons]
    exact gives_last_item hitem
  | item :: next :: items, _, depth, fuel, h, hfuel, done, rest => by
    rw [ReadableItems] at h
    obtain ⟨blanks, hseparator, hblanks⟩ := hstyle.item
    rw [itemsText_cons_cons, hseparator, List.length_append, List.length_append, List.length_cons] at hfuel
    rw [itemsText_cons_cons, hseparator, List.append_assoc, List.append_assoc, List.cons_append]
    obtain ⟨less, rfl⟩ := Nat.exists_eq_add_one_of_ne_zero (show fuel ≠ 0 by omega)
    have hitem := gives_text hstyle item depth less h.1 (by omega)
      (',' :: (blanks ++ (itemsText style (next :: items) ++ ']' :: rest))) (delimited_cons (by decide))
    have hitems := gives_items hstyle (next :: items) (List.cons_ne_nil _ _) depth less h.2 (by omega)
      (item.reread :: done) rest
    rw [List.reverse_cons, List.append_assoc, List.singleton_append] at hitems
    rw [rereadItems]
    exact gives_next_item hblanks (begun_itemsText style next items _) hitem hitems

theorem gives_members {limits : Limits} {style : Style} (hstyle : style.Spaced) :
    (members : List (CodeText × Json)) → members ≠ [] → (depth fuel : Nat) → ReadableMembers limits depth members →
      2 * (membersText style members).length + 1 ≤ fuel → (done : List (CodeText × Json)) →
      ((done ++ members).map Prod.fst).Nodup → (rest : List Char) →
      Gives (readMembers limits fuel depth done) (membersText style members ++ '\x7d' :: rest) 
        (.obj (done ++ rereadMembers members)) rest
  | [], hne, _, _, _, _, _, _, _ => absurd rfl hne
  | [(key, value)], _, depth, fuel, h, hfuel, done, hkeys, rest => by
    rw [ReadableMembers] at h
    obtain ⟨blanks, hseparator, hblanks⟩ := hstyle.key
    rw [membersText, hseparator, List.length_append, List.length_append, List.length_cons] at hfuel
    rw [membersText, hseparator, List.append_assoc, stringText_append, List.append_assoc, List.cons_append]
    obtain ⟨less, rfl⟩ := Nat.exists_eq_add_one_of_ne_zero (show fuel ≠ 0 by omega)
    have hvalue := gives_text hstyle value depth less h.1 (by omega) ('\x7d' :: rest) (delimited_cons (by decide))
    rw [rereadMembers, rereadMembers, ← setMember_fresh (key_not_mem hkeys) value.reread]
    exact gives_last_member (gives_stringText _ key _) hblanks (begun_text style value _) hvalue
  | (key, value) :: next :: members, _, depth, fuel, h, hfuel, done, hkeys, rest => by
    rw [ReadableMembers] at h
    obtain ⟨gap, hitemSeparator, hgap⟩ := hstyle.item
    obtain ⟨blanks, hkeySeparator, hblanks⟩ := hstyle.key
    rw [membersText_cons_cons, hkeySeparator, hitemSeparator] at hfuel ⊢
    simp only [List.length_append, List.length_cons] at hfuel
    obtain ⟨less, rfl⟩ := Nat.exists_eq_add_one_of_ne_zero (show fuel ≠ 0 by omega)
    have hfresh := setMember_fresh (key_not_mem hkeys) value.reread
    have hmore : Begun (membersText style (next :: members) ++ '\x7d' :: rest) := by
      obtain ⟨tail, hcons⟩ := exists_membersText_cons style next members
      rw [hcons]
      exact begun_cons (by decide)
    have hvalue := gives_text hstyle value depth less h.1 (by omega)
      (',' :: (gap ++ (membersText style (next :: members) ++ '\x7d' :: rest))) (delimited_cons (by decide))
    have hnodup : ((setMember done key value.reread ++ next :: members).map Prod.fst).Nodup := by
      rw [hfresh]
      simpa using hkeys
    have hmembers := gives_members hstyle (next :: members) (List.cons_ne_nil _ _) depth less h.2 (by omega)
      (setMember done key value.reread) hnodup rest
    have hdone : done ++ (key, value.reread) :: rereadMembers (next :: members) =
        setMember done key value.reread ++ rereadMembers (next :: members) := by
      rw [hfresh, ← List.append_cons]
    rw [rereadMembers, hdone]
    simp only [List.append_assoc, stringText_append, List.cons_append]
    exact gives_next_member (gives_stringText _ key _) hblanks (begun_text style value _) hvalue hgap hmore hmembers

end

/-- What is written is read back. -/
theorem parseWithin_text {limits : Limits} {style : Style} (hstyle : style.Spaced) {json : Json}
    (h : Readable limits 0 json) : parseWithin limits (text style json) = .ok json.reread := by
  have hbegun := begun_text style json []
  rw [List.append_nil] at hbegun
  have hgives := gives_text hstyle json 0 (2 * (text style json).length + 2) h (by omega) [] delimited_nil
  rw [List.append_nil] at hgives
  obtain ⟨behind, hbehind⟩ := hgives 0
  rw [parseWithin, skipSpace_of_begun hbegun]
  simp only [hbehind, skipSpace]

end ContractMigration.Json
