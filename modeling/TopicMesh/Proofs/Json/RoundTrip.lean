import TopicMesh.Json.Parser
import TopicMesh.Json.Printer
import TopicMesh.Proofs.Text.Reading

/-!
# Reading rendered JSON

What `render` writes, `parse?` reads back, for every **plain** value: all its numbers
are integers and all its strings denote texts.

Each part of the parser is shown to take exactly what the printer wrote and to leave
what follows.  For a number that needs to know what follows, since digits are taken as
long as there are any: nothing, a comma or a closing bracket (`Closes`).
-/

namespace TopicMesh.Json

mutual

/-- Whether all numbers are integers and all strings denote texts. -/
def isPlain : Json → Bool
  | decimal _ => false
  | string s => s.isSome
  | array items => itemsPlain items
  | object members => membersPlain members
  | _ => true

/-- Whether all items are plain. -/
def itemsPlain : List Json → Bool
  | [] => true
  | item :: rest => item.isPlain && itemsPlain rest

/-- Whether all members are plain, names included. -/
def membersPlain : List (Option String × Json) → Bool
  | [] => true
  | (name, value) :: rest => name.isSome && value.isPlain && membersPlain rest

end

/-! ## Strings -/

theorem stringFrom_plain {c : Char} (quote : c ≠ '"') (backslash : c ≠ '\\') (low : 0x20 ≤ c.toNat)
    (r : Reading) (rest : List Char) : stringFrom r (c :: rest) = stringFrom (r.push c) rest := by
  rw [stringFrom, if_neg (not_or.2 ⟨backslash, by omega⟩)]
  · exact quote
  · rintro _ _ _ _ _ rfl
    exact absurd rfl backslash
  · rintro _ _ rfl
    exact absurd rfl backslash

theorem stringFrom_unit {a b c d : Char} {n : Nat} (h : hexQuad? a b c d = some n) (r : Reading)
    (rest : List Char) :
    stringFrom r ('\\' :: 'u' :: a :: b :: c :: d :: rest) = stringFrom (r.pushUnit n) rest := by
  rw [stringFrom, h]

theorem pushUnit_of_lt {n : Nat} (h : n < 0xD800) (r : Reading) :
    r.pushUnit n = r.push (Char.ofNat n) := by
  rw [Reading.pushUnit, if_neg (by omega), if_neg (by omega)]

/-- The control characters with a letter of their own. -/
def lettered : List Nat := [8, 9, 10, 12, 13]

theorem stringFrom_control {n : Nat} (low : n < 0x20) (r : Reading) (rest : List Char) :
    stringFrom r (escape (Char.ofNat n) ++ rest) = stringFrom (r.push (Char.ofNat n)) rest := by
  by_cases letter : n ∈ lettered
  · simp only [lettered, List.mem_cons, List.not_mem_nil, or_false] at letter
    rcases letter with rfl | rfl | rfl | rfl | rfl <;> rfl
  · have digits : ∀ n, n < 0x20 → n ∉ lettered →
        escape (Char.ofNat n) = ['\\', 'u', '0', '0', hexDigit (n / 16), hexDigit (n % 16)] ∧
          hexQuad? '0' '0' (hexDigit (n / 16)) (hexDigit (n % 16)) = some n := by decide
    obtain ⟨shape, value⟩ := digits n low letter
    rw [shape]
    exact (stringFrom_unit value r rest).trans (by rw [pushUnit_of_lt (by omega)])

/-- A character is read from its escape. -/
theorem stringFrom_escape (c : Char) (r : Reading) (rest : List Char) :
    stringFrom r (escape c ++ rest) = stringFrom (r.push c) rest := by
  by_cases quote : c = '"'
  · subst quote
    rfl
  by_cases backslash : c = '\\'
  · subst backslash
    rfl
  by_cases low : c.toNat < 0x20
  · have := stringFrom_control low r rest
    rwa [Char.ofNat_toNat] at this
  · rw [escape, if_neg quote, if_neg backslash, if_neg low]
    exact stringFrom_plain quote backslash (by omega) r rest

theorem stringFrom_escaped (cs read rest : List Char) :
    stringFrom ⟨some read, none⟩ (cs.flatMap escape ++ '"' :: rest) =
      some (some (String.ofList (read.reverse ++ cs)), rest) := by
  induction cs generalizing read with
  | nil =>
    rw [List.append_nil]
    rfl
  | cons c cs ih =>
    rw [List.flatMap_cons, List.append_assoc, stringFrom_escape]
    show stringFrom ⟨some (c :: read), none⟩ _ = _
    rw [ih, List.reverse_cons, List.append_assoc]
    rfl

theorem string?_renderString (s : String) (rest : List Char) :
    string? (s.toList.flatMap escape ++ '"' :: rest) = some (some s, rest) := by
  rw [string?, stringFrom_escaped, List.reverse_nil, List.nil_append, String.ofList_toList]

/-! ## Numbers -/

/-- Whether a text is empty or begins with what may follow a value. -/
def Closes : List Char → Prop
  | [] => True
  | c :: _ => c = ',' ∨ c = ']' ∨ c = '}'

theorem isDigit_eq (c : Char) : isDigit c = c.isDigit :=
  rfl

theorem Closes.noDigit {c : Char} {rest : List Char} (h : Closes (c :: rest)) :
    isDigit c = false := by
  rcases h with rfl | rfl | rfl <;> rfl

theorem numeralValue_eq (ds : List Char) : numeralValue ds = Nat.ofDigitChars 10 ds 0 := by
  unfold numeralValue Nat.ofDigitChars
  congr 1
  funext n c
  rw [Nat.mul_comm]
  rfl

theorem numeralValue_renderNat (n : Nat) : numeralValue (renderNat n) = n := by
  rw [numeralValue_eq, renderNat, Nat.ofDigitChars_ten_toDigits]

theorem digitRun?_append {ds rest : List Char} (digits : ∀ c ∈ ds, isDigit c = true) (some_digit : ds ≠ [])
    (closes : Closes rest) : digitRun? (ds ++ rest) = some (ds, rest) := by
  have run : (ds ++ rest).takeWhile isDigit = ds ∧ (ds ++ rest).dropWhile isDigit = rest := by
    rw [List.takeWhile_append_of_pos digits, List.dropWhile_append_of_pos digits]
    cases rest with
    | nil => simp
    | cons c rest =>
      have stop := closes.noDigit
      rw [List.takeWhile_cons_of_neg (by simp [stop]), List.dropWhile_cons_of_neg (by simp [stop])]
      simp
  unfold digitRun?
  simp only [run.1, run.2, List.isEmpty_iff, some_digit, if_false]

theorem magnitude?_renderNat (negative : Bool) {n : Nat} (h : negative = true → n ≠ 0)
    {rest : List Char} (closes : Closes rest) :
    magnitude? negative (renderNat n ++ rest) =
      some (.integer (if negative then -(n : Int) else n), rest) := by
  have digits : ∀ c ∈ renderNat n, isDigit c = true := fun c hc =>
    Text.isDigit_of_mem_toDigits hc
  have run := digitRun?_append digits Nat.toDigits_ne_nil closes
  have short : ¬((renderNat n).head? = some '0' ∧ (renderNat n).length ≠ 1) := by
    rintro ⟨zero, long⟩
    rcases Nat.eq_zero_or_pos n with rfl | positive
    · exact absurd rfl long
    · exact absurd zero (Text.head?_toDigits_ne positive)
  have noFraction : fraction? rest = some ([], rest) := by
    unfold fraction?
    split
    · next tail => rcases closes with h | h | h <;> exact absurd h (by decide)
    · rfl
  have noExponent : exponent? rest = some (none, rest) := by
    cases rest with
    | nil => rfl
    | cons c rest =>
      have apart : ¬(c = 'e' ∨ c = 'E') := by
        rcases closes with rfl | rfl | rfl <;> decide
      rw [exponent?, if_neg apart]
  have keeps : ([] : List Char).isEmpty = true ∧ (none : Option Int).isNone = true ∧
      ¬(negative = true ∧ n = 0) :=
    ⟨rfl, rfl, fun ⟨minus, zero⟩ => h minus zero⟩
  unfold magnitude?
  rw [run]
  simp only [Option.bind_eq_bind, Option.bind_some, if_neg short, noFraction, noExponent,
    numeralValue_renderNat, if_pos keeps]

theorem number?_renderInt (n : Int) {rest : List Char} (closes : Closes rest) :
    number? (renderInt n ++ rest) = some (.integer n, rest) := by
  cases n with
  | ofNat n =>
    have plain : number? (renderNat n ++ rest) = magnitude? false (renderNat n ++ rest) := by
      unfold number?
      split
      · next tail same =>
        have digit : ∀ c ∈ renderNat n, c.isDigit = true := fun c hc =>
          Text.isDigit_of_mem_toDigits hc
        cases shown : renderNat n with
        | nil => exact absurd shown Nat.toDigits_ne_nil
        | cons c cs =>
          rw [shown, List.cons_append] at same
          have := digit c (shown ▸ List.mem_cons_self)
          rw [(List.cons.inj same).1] at this
          exact absurd this (by decide)
      · rfl
    rw [renderInt, plain, magnitude?_renderNat false nofun closes]
    rfl
  | negSucc n =>
    show magnitude? true (renderNat (n + 1) ++ rest) = _
    rw [magnitude?_renderNat true (fun _ => Nat.succ_ne_zero n) closes]
    rfl

/-! ## Values -/

/-- Whether a character can begin the text of a value. -/
def Begins (c : Char) : Prop :=
  c = 'n' ∨ c = 't' ∨ c = 'f' ∨ c = '"' ∨ c = '[' ∨ c = '\x7b' ∨ c = '-' ∨ isDigit c = true

theorem Begins.apart {c : Char} (h : Begins c) : isSpace c = false ∧ c ≠ ']' := by
  rcases h with rfl | rfl | rfl | rfl | rfl | rfl | rfl | digit
  any_goals decide
  rw [isDigit_eq] at digit
  have high : c.toNat ≤ 57 ∧ 48 ≤ c.toNat := by
    simp only [Char.isDigit, ge_iff_le, Bool.and_eq_true, decide_eq_true_eq] at digit
    exact ⟨digit.2, digit.1⟩
  constructor
  · cases space : isSpace c with
    | false => rfl
    | true =>
      simp only [isSpace, Bool.or_eq_true, beq_iff_eq] at space
      rcases space with ((rfl | rfl) | rfl) | rfl <;> exact absurd high (by decide)
  · rintro rfl
    exact absurd high (by decide)

theorem skipSpace_of_not_space {c : Char} (h : isSpace c = false) (rest : List Char) :
    skipSpace (c :: rest) = c :: rest :=
  List.dropWhile_cons_of_neg (by simp [h])

theorem Closes.skipSpace {rest : List Char} (h : Closes rest) : Json.skipSpace rest = rest := by
  cases rest with
  | nil => rfl
  | cons c rest =>
    refine skipSpace_of_not_space ?_ rest
    rcases h with rfl | rfl | rfl <;> rfl

theorem renderInt_begins (n : Int) : ∃ c cs, renderInt n = c :: cs ∧ (c = '-' ∨ isDigit c = true) := by
  cases n with
  | negSucc n => exact ⟨'-', renderNat (n + 1), rfl, .inl rfl⟩
  | ofNat n =>
    cases shown : renderNat n with
    | nil => exact absurd shown Nat.toDigits_ne_nil
    | cons c cs =>
      have first : c ∈ renderNat n := shown ▸ List.mem_cons_self
      exact ⟨c, cs, shown, .inr (Text.isDigit_of_mem_toDigits first)⟩

/-- The text of a plain value is not empty and begins as values do. -/
theorem renderChars_begins {j : Json} (plain : j.isPlain = true) :
    ∃ c cs, j.renderChars = c :: cs ∧ Begins c := by
  cases j with
  | null => exact ⟨'n', _, rfl, .inl rfl⟩
  | bool b =>
    cases b with
    | true => exact ⟨'t', _, rfl, .inr (.inl rfl)⟩
    | false => exact ⟨'f', _, rfl, .inr (.inr (.inl rfl))⟩
  | integer n =>
    obtain ⟨c, cs, shown, minus | digit⟩ := renderInt_begins n
    · exact ⟨c, cs, shown, by simp [Begins, minus]⟩
    · exact ⟨c, cs, shown, by simp [Begins, digit]⟩
  | decimal d => exact absurd plain (by simp [isPlain])
  | string s =>
    cases s with
    | none => exact absurd plain (by simp [isPlain])
    | some s => exact ⟨'"', _, rfl, by simp [Begins]⟩
  | array items => exact ⟨'[', renderItems items ++ [']'], by simp [renderChars], by simp [Begins]⟩
  | object members =>
    exact ⟨'\x7b', renderMembers members ++ ['\x7d'], by simp [renderChars], by simp [Begins]⟩

theorem value?_numeral {c : Char} (h : c = '-' ∨ isDigit c = true) (fuel : Nat) (cs : List Char) :
    value? (fuel + 1) (c :: cs) = number? (c :: cs) := by
  have begins : Begins c := by
    rcases h with rfl | digit
    · simp [Begins]
    · simp [Begins, digit]
  have apart : ∀ d ∈ ['n', 't', 'f', '"', '[', '\x7b'], c ≠ d := by
    intro d hd
    rintro rfl
    rcases h with rfl | digit
    · exact absurd hd (by decide)
    · simp only [List.mem_cons, List.not_mem_nil, or_false] at hd
      rcases hd with rfl | rfl | rfl | rfl | rfl | rfl <;> exact absurd digit (by decide)
  unfold value?
  rw [skipSpace_of_not_space begins.apart.1]
  split
  case h_7 => rfl
  all_goals
    next same => exact absurd (List.cons.inj same).1 (apart _ (by decide))

/-- The items of an array begin as its first item does. -/
theorem renderItems_begins {item : Json} (plain : item.isPlain = true) (items : List Json) :
    ∃ c cs, renderItems (item :: items) = c :: cs ∧ Begins c := by
  obtain ⟨c, cs, shown, begins⟩ := renderChars_begins plain
  cases items with
  | nil => exact ⟨c, cs, shown, begins⟩
  | cons next others =>
    exact ⟨c, cs ++ ',' :: renderItems (next :: others), by simp [renderItems, shown], begins⟩

/-- The rest of an array, after its bracket and the space that follows. -/
def arrayRest (fuel : Nat) : List Char → Option (Json × List Char)
  | ']' :: rest => some (.array [], rest)
  | rest => (items? fuel rest).map fun (items, rest) => (.array items, rest)

/-- An array that is not empty is read as its items are. -/
theorem value?_array {item : Json} (plain : item.isPlain = true) (items : List Json) (fuel : Nat)
    (rest : List Char) :
    value? (fuel + 1) ('[' :: (renderItems (item :: items) ++ rest)) =
      (items? fuel (renderItems (item :: items) ++ rest)).map fun (items, rest) =>
        (.array items, rest) := by
  obtain ⟨c, cs, shown, begins⟩ := renderItems_begins plain items
  obtain ⟨space, bracket⟩ := begins.apart
  rw [shown, List.cons_append]
  rw [value?, skipSpace_of_not_space (by decide)]
  show arrayRest fuel (skipSpace (c :: (cs ++ rest))) = _
  rw [skipSpace_of_not_space space, arrayRest]
  exact fun _ same => bracket (List.cons.inj same).1

theorem renderMembers_begins (name : String) (value : Json) (members : List (Option String × Json)) :
    ∃ cs, renderMembers ((some name, value) :: members) = '"' :: cs := by
  cases members with
  | nil => exact ⟨_, rfl⟩
  | cons next others => exact ⟨_, rfl⟩

/-- An object that is not empty is read as its members are. -/
theorem value?_object (name : String) (value : Json) (members : List (Option String × Json))
    (fuel : Nat) (rest : List Char) :
    value? (fuel + 1) ('\x7b' :: (renderMembers ((some name, value) :: members) ++ rest)) =
      (members? fuel (renderMembers ((some name, value) :: members) ++ rest)).map
        fun (members, rest) => (.object members, rest) := by
  obtain ⟨cs, shown⟩ := renderMembers_begins name value members
  rw [shown, List.cons_append]
  rw [value?, skipSpace_of_not_space (by decide)]
  rfl

/-- Whether values are read from their texts with some fuel. -/
def ValuesRead (fuel : Nat) : Prop :=
  ∀ {j : Json}, j.isPlain = true → 2 * j.renderChars.length ≤ fuel →
    ∀ {rest : List Char}, Closes rest → value? fuel (j.renderChars ++ rest) = some (j, rest)

/-- Whether the items of arrays are read up to the bracket with some fuel. -/
def ItemsRead (fuel : Nat) : Prop :=
  ∀ {item : Json} {items : List Json}, item.isPlain = true → itemsPlain items = true →
    2 * (renderItems (item :: items)).length + 1 ≤ fuel → ∀ rest : List Char,
    items? fuel (renderItems (item :: items) ++ ']' :: rest) = some (item :: items, rest)

/-- Whether the members of objects are read up to the brace with some fuel. -/
def MembersRead (fuel : Nat) : Prop :=
  ∀ {name : String} {value : Json} {members : List (Option String × Json)},
    value.isPlain = true → membersPlain members = true →
    2 * (renderMembers ((some name, value) :: members)).length + 1 ≤ fuel → ∀ rest : List Char,
    members? fuel (renderMembers ((some name, value) :: members) ++ '\x7d' :: rest) =
      some ((some name, value) :: members, rest)

theorem valuesRead_succ {n : Nat} (ofItems : ItemsRead n) (ofMembers : MembersRead n) :
    ValuesRead (n + 1) := by
  intro j plain enough rest closes
  cases j with
  | null => rfl
  | bool b => cases b <;> rfl
  | integer m =>
    obtain ⟨c, cs, shown, first⟩ := renderInt_begins m
    have shape : (Json.integer m).renderChars = c :: cs := shown
    rw [shape, List.cons_append, value?_numeral first, ← List.cons_append, ← shown]
    exact number?_renderInt m closes
  | decimal d => exact absurd plain (by simp [isPlain])
  | string s =>
    cases s with
    | none => exact absurd plain (by simp [isPlain])
    | some s =>
      have shape : (Json.string (some s)).renderChars =
          '"' :: (s.toList.flatMap escape ++ ['"']) := rfl
      rw [shape, List.cons_append, List.append_assoc, value?, skipSpace_of_not_space (by decide)]
      show (string? (s.toList.flatMap escape ++ '"' :: rest)).map _ = _
      rw [string?_renderString]
      rfl
  | array items =>
    cases items with
    | nil => rfl
    | cons item items =>
      have shape : (Json.array (item :: items)).renderChars =
          '[' :: (renderItems (item :: items) ++ [']']) := rfl
      rw [shape, List.length_cons, List.length_append] at enough
      have each : item.isPlain = true ∧ itemsPlain items = true := by
        simpa [isPlain, itemsPlain] using plain
      rw [shape, List.cons_append, List.append_assoc, value?_array each.1, List.singleton_append,
        ofItems each.1 each.2 (by omega) rest]
      rfl
  | object members =>
    match members with
    | [] => rfl
    | (none, value) :: members => exact absurd plain (by simp [isPlain, membersPlain])
    | (some name, value) :: members =>
      have shape : (Json.object ((some name, value) :: members)).renderChars =
          '\x7b' :: (renderMembers ((some name, value) :: members) ++ ['\x7d']) := rfl
      rw [shape, List.length_cons, List.length_append] at enough
      have each : value.isPlain = true ∧ membersPlain members = true := by
        simpa [isPlain, membersPlain] using plain
      rw [shape, List.cons_append, List.append_assoc, value?_object, List.singleton_append,
        ofMembers each.1 each.2 (by omega) rest]
      rfl

theorem itemsRead_succ {n : Nat} (ofValues : ValuesRead n) (ofItems : ItemsRead n) :
    ItemsRead (n + 1) := by
  intro item items plain plains enough rest
  cases items with
  | nil =>
    have closes : Closes (']' :: rest) := .inr (.inl rfl)
    rw [renderItems] at enough ⊢
    rw [items?, ofValues plain (by omega) closes]
    simp only [closes.skipSpace]
  | cons next others =>
    have shape : renderItems (item :: next :: others) =
        item.renderChars ++ ',' :: renderItems (next :: others) := rfl
    rw [shape, List.length_append, List.length_cons] at enough
    have closes : Closes (',' :: (renderItems (next :: others) ++ ']' :: rest)) := .inl rfl
    have each : next.isPlain = true ∧ itemsPlain others = true := by
      simpa [itemsPlain] using plains
    have following := ofItems each.1 each.2 (by omega) rest
    rw [shape, List.append_assoc, List.cons_append, items?, ofValues plain (by omega) closes]
    simp only [closes.skipSpace, following, Option.map_some]

/-- The name of a member is read, and its value after it, which is the last one. -/
theorem members?_last (name : String) {n : Nat} {value : Json} {text rest : List Char}
    (h : value? n text = some (value, '\x7d' :: rest)) :
    members? (n + 1) (renderString (some name) ++ ':' :: text) = some ([(some name, value)], rest) := by
  show members? (n + 1) (('"' :: name.toList.flatMap escape ++ ['"']) ++ ':' :: text) = _
  rw [List.append_assoc, List.singleton_append, List.cons_append, members?,
    skipSpace_of_not_space (by decide)]
  simp only [string?_renderString]
  rw [skipSpace_of_not_space (by decide)]
  simp only [h]
  rw [skipSpace_of_not_space (by decide)]
  rfl

/-- The name of a member is read, and its value after it, which others follow. -/
theorem members?_next (name : String) {n : Nat} {value : Json} {text rest last : List Char}
    {members : List (Option String × Json)} (h : value? n text = some (value, ',' :: rest))
    (others : members? n rest = some (members, last)) :
    members? (n + 1) (renderString (some name) ++ ':' :: text) =
      some ((some name, value) :: members, last) := by
  show members? (n + 1) (('"' :: name.toList.flatMap escape ++ ['"']) ++ ':' :: text) = _
  rw [List.append_assoc, List.singleton_append, List.cons_append, members?,
    skipSpace_of_not_space (by decide)]
  simp only [string?_renderString]
  rw [skipSpace_of_not_space (by decide)]
  simp only [h]
  rw [skipSpace_of_not_space (by decide)]
  simp only [others, Option.map_some]

theorem membersRead_succ {n : Nat} (ofValues : ValuesRead n) (ofMembers : MembersRead n) :
    MembersRead (n + 1) := by
  intro name value members plain plains enough rest
  match members with
  | [] =>
    have closes : Closes ('\x7d' :: rest) := .inr (.inr rfl)
    rw [renderMembers, List.length_append, List.length_cons] at enough
    rw [renderMembers, List.append_assoc, List.cons_append,
      members?_last name (ofValues plain (by omega) closes)]
  | (none, _) :: _ => exact absurd plains (by simp [membersPlain])
  | (some other, next) :: members =>
    have shape : renderMembers ((some name, value) :: (some other, next) :: members) =
        renderString (some name) ++ ':' :: value.renderChars ++
          ',' :: renderMembers ((some other, next) :: members) := rfl
    rw [shape, List.length_append, List.length_append, List.length_cons, List.length_cons] at enough
    have closes :
        Closes (',' :: (renderMembers ((some other, next) :: members) ++ '\x7d' :: rest)) := .inl rfl
    have each : next.isPlain = true ∧ membersPlain members = true := by
      simpa [membersPlain] using plains
    have following : members? n (renderMembers ((some other, next) :: members) ++ '\x7d' :: rest) =
        some ((some other, next) :: members, rest) := ofMembers each.1 each.2 (by omega) rest
    rw [shape, List.append_assoc, List.append_assoc, List.cons_append, List.cons_append,
      members?_next name (ofValues plain (by omega) closes) following]

/-- The three readers, by induction on the fuel. -/
theorem allRead (n : Nat) : ValuesRead n ∧ ItemsRead n ∧ MembersRead n := by
  induction n with
  | zero =>
    refine ⟨fun {j} plain enough => ?_, fun _ _ enough => by omega, fun _ _ enough => by omega⟩
    obtain ⟨c, cs, shown, _⟩ := renderChars_begins plain
    rw [shown, List.length_cons] at enough
    omega
  | succ n ih =>
    obtain ⟨values, items, members⟩ := ih
    exact ⟨valuesRead_succ items members, itemsRead_succ values items,
      membersRead_succ values members⟩

/-- **What a plain value is rendered as reads back as the value.** -/
theorem parse?_render {j : Json} (plain : j.isPlain = true) : parse? j.render = some j := by
  have closes : Closes [] := trivial
  have read := (allRead (2 * j.renderChars.length + 2)).1 plain (by omega) closes
  rw [List.append_nil] at read
  rw [parse?, render, String.toList_ofList, parseChars?, read]
  rfl

end TopicMesh.Json
