/-
# The compact text of a JSON value is unambiguous

A value can be read off its compact text, whatever follows, unless the value is
a number and what follows goes on with it (`Json.compact_append_inj`). A quoted
string ends at its quote, since every quote inside it is escaped: the reader of
strings takes back each escape as its character
(`Json.Quoted.decode?_encode_append`). The first character of a value tells its
kind (`Json.kindOf`), so no value begins with the bracket or brace that closes
a list of them, and a list is read off item by item up to its end
(`Json.intercalate_append_inj`). An object ends with its brace, so nothing can
go on with it (`Json.object_append_inj`).

The text holds no character below the space (`Json.le_of_mem_compact`): control
characters are escaped, and none separates the tokens.

Key definitions: `Json.kindOf`, `Json.NoNumberAhead`.
Key theorems: `Json.Quoted.decode?_encode_append`, `Json.intercalate_append_inj`,
`Json.compact_append_inj`, `Json.object_append_inj`, `Json.le_of_mem_compact`.
-/
import DiceTower.Json.Basic
import DiceTower.Proofs.Text.Runs

namespace DiceTower
namespace Json

open Text

/-! ### Quoted strings -/

namespace Quoted

/-- The ways in which a character stands in a quoted string. -/
inductive Escapes (c : Char) : Text → Prop
  | short {letter : Char} (hletter : letter ≠ 'u') (h : shortEscape? letter = some c) :
      Escapes c ['\\', letter]
  | code (h : c.toNat < 32) :
      Escapes c ['\\', 'u', '0', '0', hexDigit (c.toNat / 16), hexDigit (c.toNat % 16)]
  | plain (h : IsPlain c) : Escapes c [c]

theorem escapes_escape (c : Char) : Escapes c (escape c) := by
  unfold escape
  split_ifs with hquote hslash hb hf hn hr ht hcode
  · exact .short (by decide) (by simp [shortEscape?, hquote])
  · exact .short (by decide) (by simp [shortEscape?, hslash])
  · exact .short (by decide) (by simp [shortEscape?, hb])
  · exact .short (by decide) (by simp [shortEscape?, hf])
  · exact .short (by decide) (by simp [shortEscape?, hn])
  · exact .short (by decide) (by simp [shortEscape?, hr])
  · exact .short (by decide) (by simp [shortEscape?, ht])
  · exact .code hcode
  · exact .plain ⟨hquote, hslash, by omega⟩

theorem hexValue?_hexDigit {n : Nat} (h : n < 16) : hexValue? (hexDigit n) = some n := by
  have hall : ∀ i : Fin 16, hexValue? (hexDigit i) = some i.val := by decide
  exact hall ⟨n, h⟩

/-- Four digits are read as the code that they were written for. -/
theorem hexCode?_hexDigit {n : Nat} (h : n < 32) :
    hexCode? '0' '0' (hexDigit (n / 16)) (hexDigit (n % 16)) = some n := by
  have hzero : hexValue? '0' = some 0 := rfl
  have hhigh : hexValue? (hexDigit (n / 16)) = some (n / 16) := hexValue?_hexDigit (by omega)
  have hlow : hexValue? (hexDigit (n % 16)) = some (n % 16) := hexValue?_hexDigit (by omega)
  have hwhole : n / 16 * 16 + n % 16 = n := by omega
  simp [hexCode?, hzero, hhigh, hlow, hwhole]

/-- A code stands for the character that has it. -/
theorem codeChar?_toNat (c : Char) : codeChar? c.toNat = some c := by
  have hvalid : c.toNat.isValidChar := c.valid
  simp [codeChar?, hvalid]

/-- What stands for a character is read back as the character. -/
theorem Escapes.decode?_append {c : Char} {text : Text} (h : Escapes c text) (rest : Text) :
    decode? (text ++ rest) = (decode? rest).map fun read => (c :: read.1, read.2) := by
  cases h with
  | short hletter h =>
    rw [List.cons_append, List.cons_append, List.nil_append, decode?, h]
    · cases decode? rest <;> rfl
    · exact fun _ _ _ _ _ hu _ => hletter hu
  | code h =>
    simp only [List.cons_append, List.nil_append]
    simp only [decode?, hexCode?_hexDigit h, codeChar?_toNat]
    cases decode? rest <;> rfl
  | plain h =>
    obtain ⟨hquote, hslash, hspace⟩ := h
    have hnot : ¬ (c = '\\' ∨ c.toNat < 32) := by
      rw [not_or]
      exact ⟨hslash, by omega⟩
    rw [List.cons_append, List.nil_append, decode?, if_neg hnot]
    · cases decode? rest <;> rfl
    · exact hquote
    · exact fun _ _ _ _ _ hc _ => hslash hc
    · exact fun _ _ hc _ => hslash hc

/-- **A string is read back up to its quote,** whatever follows. -/
theorem decode?_encode_append (rest : Text) :
    ∀ text : Text, decode? (encode text ++ '"' :: rest) = some (text, rest)
  | [] => rfl
  | c :: text => by
    have hsplit : encode (c :: text) ++ '"' :: rest =
        escape c ++ (encode text ++ '"' :: rest) := by simp [encode]
    rw [hsplit, (escapes_escape c).decode?_append, decode?_encode_append rest text,
      Option.map_some]

/-- A quoted string is read off up to its end. -/
theorem quote_append_inj {text text' rest rest' : Text}
    (h : quote text ++ rest = quote text' ++ rest') : text = text' ∧ rest = rest' := by
  have hbehind : encode text ++ '"' :: rest = encode text' ++ '"' :: rest' := by
    simpa [quote] using h
  have hread := congrArg decode? hbehind
  rw [decode?_encode_append, decode?_encode_append] at hread
  simpa using hread

theorem le_of_shortEscape? {letter c : Char} (h : shortEscape? letter = some c) :
    32 ≤ letter.toNat := by
  unfold shortEscape? at h
  split_ifs at h with hself
  · rcases hself with rfl | rfl | rfl <;> decide
  all_goals
    subst_vars
    decide

theorem le_hexDigit {n : Nat} (h : n < 16) : 32 ≤ (hexDigit n).toNat := by
  have hall : ∀ i : Fin 16, 32 ≤ (hexDigit i).toNat := by decide
  exact hall ⟨n, h⟩

/-- No control character stands for a character. -/
theorem Escapes.le_of_mem {c : Char} {text : Text} (h : Escapes c text) :
    ∀ d ∈ text, 32 ≤ d.toNat := by
  cases h with
  | short hletter h => simp [le_of_shortEscape? h]
  | code h => simp [le_hexDigit (show c.toNat / 16 < 16 by omega),
      le_hexDigit (show c.toNat % 16 < 16 by omega)]
  | plain h => simp [h.2.2]

/-- A quoted string holds no control character. -/
theorem le_of_mem_quote {text : Text} : ∀ c ∈ quote text, 32 ≤ c.toNat := by
  have hencode : ∀ c ∈ encode text, 32 ≤ c.toNat := by
    intro c hc
    obtain ⟨d, -, hd⟩ := List.mem_flatMap.mp hc
    exact (escapes_escape d).le_of_mem c hd
  simpa [quote, or_imp, forall_and] using hencode

end Quoted

/-! ### Lists with commas -/

theorem compactItems_eq : ∀ items : List Json,
    compactItems items = [','].intercalate (items.map compact)
  | [] => rfl
  | [item] => by simp [compactItems]
  | item :: second :: rest => by
    rw [compactItems, compactItems_eq (second :: rest)]
    · simp [List.intercalate_cons_cons]
    · simp

/-- The compact text of a member. -/
def compactMember (member : Text × Json) : Text := Quoted.quote member.1 ++ ':' :: compact member.2

theorem compactMembers_eq : ∀ members : List (Text × Json),
    compactMembers members = [','].intercalate (members.map compactMember)
  | [] => rfl
  | [member] => by simp [compactMembers, compactMember]
  | member :: second :: rest => by
    rw [compactMembers, compactMembers_eq (second :: rest)]
    · simp [List.intercalate_cons_cons, compactMember]
    · simp

/-- Nothing behind the text goes on with a number that ends there. -/
def NoNumberAhead (rest : Text) : Prop := ∀ c, rest.head? = some c → c.isDigit = false ∧ c ≠ 'e'

theorem noNumberAhead_cons {c : Char} (hdigit : c.isDigit = false) (he : c ≠ 'e') (rest : Text) :
    NoNumberAhead (c :: rest) := by
  intro d hd
  obtain rfl : c = d := by simpa using hd
  exact ⟨hdigit, he⟩

/-- The character can end a list: it is no comma, and no number goes on with it. -/
def Closes (close : Char) : Prop := close ≠ ',' ∧ close.isDigit = false ∧ close ≠ 'e'

section

variable {α : Type} (write : α → Text) {close : Char}

/-- The first text ends before a comma or the end of the list. -/
theorem intercalate_cons (hclose : Closes close) (a : α) (others : List α) (rest : Text) :
    ∃ behind, [','].intercalate ((a :: others).map write) ++ close :: rest = write a ++ behind ∧
      NoNumberAhead behind ∧ (others = [] ∧ behind = close :: rest ∨
        others ≠ [] ∧ behind = ',' :: ([','].intercalate (others.map write) ++ close :: rest)) := by
  cases others with
  | nil => exact ⟨_, by simp, noNumberAhead_cons hclose.2.1 hclose.2.2 _, Or.inl ⟨rfl, rfl⟩⟩
  | cons second others =>
    refine ⟨_, ?_, noNumberAhead_cons (c := ',') (by decide) (by decide) _,
      Or.inr ⟨by simp, rfl⟩⟩
    simp [List.intercalate_cons_cons]

/-- **A list is read off item by item,** if each item can be and none begins with
the end of the list. -/
theorem intercalate_append_inj (hclose : Closes close)
    (hopen : ∀ a, ∃ c text, write a = c :: text ∧ c ≠ close) {rest rest' : Text} :
    ∀ {items items' : List α},
      (∀ a ∈ items, ∀ b behind behind', NoNumberAhead behind → NoNumberAhead behind' →
        write a ++ behind = write b ++ behind' → a = b ∧ behind = behind') →
      [','].intercalate (items.map write) ++ close :: rest =
        [','].intercalate (items'.map write) ++ close :: rest' → items = items' ∧ rest = rest'
  | [], [], _, h => by simpa using h
  | [], b :: others, _, h => by
    obtain ⟨behind, hbehind, -, -⟩ := intercalate_cons write hclose b others rest'
    obtain ⟨c, text, htext, hc⟩ := hopen b
    rw [hbehind, htext] at h
    exact absurd (List.cons.inj h).1.symm hc
  | a :: others, [], _, h => by
    obtain ⟨behind, hbehind, -, -⟩ := intercalate_cons write hclose a others rest
    obtain ⟨c, text, htext, hc⟩ := hopen a
    rw [hbehind, htext] at h
    exact absurd (List.cons.inj h).1 hc
  | a :: others, b :: others', hread, h => by
    obtain ⟨behind, hbehind, hahead, hcases⟩ := intercalate_cons write hclose a others rest
    obtain ⟨behind', hbehind', hahead', hcases'⟩ := intercalate_cons write hclose b others' rest'
    rw [hbehind, hbehind'] at h
    obtain ⟨rfl, hrest⟩ := hread a List.mem_cons_self b behind behind' hahead hahead' h
    rcases hcases with ⟨rfl, rfl⟩ | ⟨-, rfl⟩
    · rcases hcases' with ⟨rfl, rfl⟩ | ⟨-, rfl⟩
      · exact ⟨rfl, (List.cons.inj hrest).2⟩
      · exact absurd (List.cons.inj hrest).1 hclose.1
    · rcases hcases' with ⟨rfl, rfl⟩ | ⟨-, rfl⟩
      · exact absurd (List.cons.inj hrest).1.symm hclose.1
      · obtain ⟨rfl, hend⟩ := intercalate_append_inj hclose hopen
          (fun a ha => hread a (List.mem_cons_of_mem _ ha)) (List.cons.inj hrest).2
        exact ⟨rfl, hend⟩

/-- A list holds the characters of its items and commas. -/
theorem mem_intercalate {texts : List Text} {c : Char} (h : c ∈ [','].intercalate texts) :
    c = ',' ∨ ∃ text ∈ texts, c ∈ text := by
  match texts with
  | [] => simp at h
  | [text] => exact Or.inr ⟨text, by simp, by simpa using h⟩
  | text :: second :: rest =>
    rw [List.intercalate_cons_cons, List.mem_append, List.mem_append, List.mem_singleton] at h
    rcases h with (htext | hcomma) | hrest
    · exact Or.inr ⟨text, by simp, htext⟩
    · exact Or.inl hcomma
    · rcases mem_intercalate hrest with hcomma | ⟨other, hother, hc⟩
      · exact Or.inl hcomma
      · exact Or.inr ⟨other, List.mem_cons_of_mem _ hother, hc⟩

end

/-! ### Values -/

/-- What holds of a value if it holds of its items and members holds of every value. -/
@[elab_as_elim]
theorem inductionOn {motive : Json → Prop} (v : Json) (null : motive null)
    (boolean : ∀ b, motive (boolean b))
    (number : ∀ whole places, motive (number whole places))
    (string : ∀ text, motive (string text))
    (array : ∀ items, (∀ item ∈ items, motive item) → motive (array items))
    (object : ∀ members, (∀ member ∈ members, motive member.2) → motive (object members)) :
    motive v := by
  match v with
  | .null => exact null
  | .boolean b => exact boolean b
  | .number whole places => exact number whole places
  | .string text => exact string text
  | .array items =>
    refine array items fun item hitem => ?_
    exact inductionOn item null boolean number string array object
  | .object members =>
    refine object members fun (key, value) hmember => ?_
    have hsize : 1 + sizeOf key + sizeOf value < sizeOf members := List.sizeOf_lt_of_mem hmember
    exact inductionOn value null boolean number string array object
termination_by v

/-- A character that stands for the kind of a value: the first of its text, but the
truth values share one, and the numbers. -/
def kind : Json → Char
  | null => 'n'
  | boolean _ => 't'
  | number _ _ => '0'
  | string _ => '"'
  | array _ => '['
  | object _ => '\x7b'

/-- The kind of a value whose text begins with the character. -/
def kindOf (c : Char) : Char :=
  if c.isDigit ∨ c = '-' then '0' else if c = 'f' then 't' else c

theorem exists_ofInt_eq_cons (n : Int) : ∃ c text, Text.ofInt n = c :: text ∧ kindOf c = '0' := by
  unfold Text.ofInt
  by_cases hn : n < 0
  · rw [if_pos hn]
    exact ⟨'-', _, rfl, rfl⟩
  · rw [if_neg hn]
    obtain ⟨c, text, htext, hc⟩ := exists_ofNat_eq_cons n.natAbs
    exact ⟨c, text, htext, by simp [kindOf, hc]⟩

/-- **The first character of a value tells its kind.** -/
theorem exists_compact_eq_cons (v : Json) :
    ∃ c text, compact v = c :: text ∧ kindOf c = v.kind := by
  match v with
  | null => exact ⟨'n', _, rfl, rfl⟩
  | boolean true => exact ⟨'t', _, rfl, rfl⟩
  | boolean false => exact ⟨'f', _, rfl, rfl⟩
  | string text => exact ⟨'"', _, rfl, rfl⟩
  | array items => exact ⟨'[', _, rfl, rfl⟩
  | object members => exact ⟨'\x7b', _, rfl, rfl⟩
  | number whole places =>
    obtain ⟨c, text, htext, hc⟩ := exists_ofInt_eq_cons whole
    by_cases hplaces : places = 0
    · exact ⟨c, text, by rw [compact, compactNumber, if_pos hplaces, htext], hc⟩
    · exact ⟨c, _, by rw [compact, compactNumber, if_neg hplaces, htext, List.cons_append], hc⟩

/-- Values of different kinds begin differently. -/
theorem kind_eq_of_append {v w : Json} {rest rest' : Text}
    (h : compact v ++ rest = compact w ++ rest') : v.kind = w.kind := by
  obtain ⟨c, text, htext, hc⟩ := exists_compact_eq_cons v
  obtain ⟨c', text', htext', hc'⟩ := exists_compact_eq_cons w
  rw [htext, htext', List.cons_append, List.cons_append, List.cons.injEq] at h
  rw [← hc, ← hc', h.1]

/-- The places of a number stand behind an exponent. -/
theorem compactNumber_append (whole : Int) (places : Nat) {rest : Text} (h : NoNumberAhead rest) :
    ∃ behind, compactNumber whole places ++ rest = Text.ofInt whole ++ behind ∧
      (∀ c, behind.head? = some c → c.isDigit = false) ∧
      (places = 0 ∧ behind = rest ∨
        places ≠ 0 ∧ behind = 'e' :: '-' :: (Text.ofNat places ++ rest)) := by
  unfold compactNumber
  by_cases hplaces : places = 0
  · rw [if_pos hplaces]
    exact ⟨rest, rfl, fun c hc => (h c hc).1, Or.inl ⟨hplaces, rfl⟩⟩
  · rw [if_neg hplaces]
    exact ⟨_, by simp, by simp, Or.inr ⟨hplaces, rfl⟩⟩

/-- A number is read off where nothing goes on with it. -/
theorem compactNumber_append_inj {whole whole' : Int} {places places' : Nat} {rest rest' : Text}
    (hrest : NoNumberAhead rest) (hrest' : NoNumberAhead rest')
    (h : compactNumber whole places ++ rest = compactNumber whole' places' ++ rest') :
    whole = whole' ∧ places = places' ∧ rest = rest' := by
  obtain ⟨behind, hbehind, hahead, hcases⟩ := compactNumber_append whole places hrest
  obtain ⟨behind', hbehind', hahead', hcases'⟩ := compactNumber_append whole' places' hrest'
  rw [hbehind, hbehind'] at h
  obtain ⟨hwhole, hsame⟩ := ofInt_append_inj hahead hahead' h
  refine ⟨hwhole, ?_⟩
  rcases hcases with ⟨rfl, rfl⟩ | ⟨-, rfl⟩
  · rcases hcases' with ⟨rfl, rfl⟩ | ⟨-, rfl⟩
    · exact ⟨rfl, hsame⟩
    · have hnumber := hrest 'e' (by rw [hsame, List.head?_cons])
      exact absurd rfl hnumber.2
  · rcases hcases' with ⟨rfl, rfl⟩ | ⟨-, rfl⟩
    · have hnumber := hrest' 'e' (by rw [← hsame, List.head?_cons])
      exact absurd rfl hnumber.2
    · exact ofNat_append_inj (fun c hc => (hrest c hc).1) (fun c hc => (hrest' c hc).1)
        (List.cons.inj (List.cons.inj hsame).2).2

theorem closes_bracket : Closes ']' := ⟨by decide, by decide, by decide⟩

theorem closes_brace : Closes '\x7d' := ⟨by decide, by decide, by decide⟩

/-- No value begins with the end of a list. -/
theorem exists_compact_eq_cons_ne (v : Json) :
    ∃ c text, compact v = c :: text ∧ c ≠ ']' := by
  obtain ⟨c, text, htext, hc⟩ := exists_compact_eq_cons v
  refine ⟨c, text, htext, ?_⟩
  rintro rfl
  have hbracket : kindOf ']' = ']' := by decide
  rw [hbracket] at hc
  cases v <;> simp [kind] at hc

/-- An object is read off, whatever follows, if the values of its members can be. -/
theorem object_append_inj_of {members members' : List (Text × Json)} {rest rest' : Text}
    (hread : ∀ member ∈ members, ∀ w behind behind', NoNumberAhead behind →
      NoNumberAhead behind' → compact member.2 ++ behind = compact w ++ behind' →
        member.2 = w ∧ behind = behind')
    (h : compact (object members) ++ rest = compact (object members') ++ rest') :
    members = members' ∧ rest = rest' := by
  have hlist : [','].intercalate (members.map compactMember) ++ '\x7d' :: rest =
      [','].intercalate (members'.map compactMember) ++ '\x7d' :: rest' := by
    simpa [compact, compactMembers_eq] using h
  refine intercalate_append_inj compactMember closes_brace ?_ ?_ hlist
  · intro member
    exact ⟨'"', _, rfl, by decide⟩
  · intro member hmember member' behind behind' hbehind hbehind' heq
    simp only [compactMember, List.append_assoc, List.cons_append] at heq
    obtain ⟨hkey, hvalue⟩ := Quoted.quote_append_inj heq
    obtain ⟨hsame, hrest⟩ := hread member hmember member'.2 behind behind' hbehind hbehind'
      (List.cons.inj hvalue).2
    exact ⟨Prod.ext hkey hsame, hrest⟩

/-- **A value is read off its text,** where nothing goes on with it. -/
theorem compact_append_inj (v w : Json) (rest rest' : Text) (hrest : NoNumberAhead rest)
    (hrest' : NoNumberAhead rest') (h : compact v ++ rest = compact w ++ rest') :
    v = w ∧ rest = rest' := by
  -- The two values are of one kind, so that only values like `v` are left for `w`.
  induction v using inductionOn generalizing w rest rest' with
  | null =>
    have hkind := kind_eq_of_append h
    cases w with
    | null => exact ⟨rfl, List.append_cancel_left h⟩
    | _ => simp [kind] at hkind
  | boolean b =>
    have hkind := kind_eq_of_append h
    cases w with
    | boolean b' =>
      cases b <;> cases b'
      · exact ⟨rfl, List.append_cancel_left h⟩
      · exact absurd (List.cons.inj h).1 (by decide)
      · exact absurd (List.cons.inj h).1 (by decide)
      · exact ⟨rfl, List.append_cancel_left h⟩
    | _ => simp [kind] at hkind
  | number whole places =>
    have hkind := kind_eq_of_append h
    cases w with
    | number whole' places' =>
      obtain ⟨rfl, rfl, hsame⟩ := compactNumber_append_inj hrest hrest' h
      exact ⟨rfl, hsame⟩
    | _ => simp [kind] at hkind
  | string text =>
    have hkind := kind_eq_of_append h
    cases w with
    | string text' =>
      obtain ⟨rfl, hsame⟩ := Quoted.quote_append_inj h
      exact ⟨rfl, hsame⟩
    | _ => simp [kind] at hkind
  | array items ih =>
    have hkind := kind_eq_of_append h
    cases w with
    | array items' =>
      have hlist : [','].intercalate (items.map compact) ++ ']' :: rest =
          [','].intercalate (items'.map compact) ++ ']' :: rest' := by
        simpa [compact, compactItems_eq] using h
      obtain ⟨rfl, hsame⟩ :=
        intercalate_append_inj compact closes_bracket exists_compact_eq_cons_ne ih hlist
      exact ⟨rfl, hsame⟩
    | _ => simp [kind] at hkind
  | object members ih =>
    have hkind := kind_eq_of_append h
    cases w with
    | object members' =>
      obtain ⟨rfl, hsame⟩ := object_append_inj_of ih h
      exact ⟨rfl, hsame⟩
    | _ => simp [kind] at hkind

/-- **An object is read off its text,** whatever follows. -/
theorem object_append_inj {members members' : List (Text × Json)} {rest rest' : Text}
    (h : compact (object members) ++ rest = compact (object members') ++ rest') :
    members = members' ∧ rest = rest' :=
  object_append_inj_of (fun member _ => compact_append_inj member.2) h

/-! ### Characters -/

theorem le_of_isDigit {c : Char} (h : c.isDigit = true) : 32 ≤ c.toNat := by
  have hlow : 48 ≤ c.toNat := (Char.isDigit_iff_toNat.mp h).1
  omega

theorem le_of_mem_ofNat {n : Nat} : ∀ c ∈ Text.ofNat n, 32 ≤ c.toNat :=
  fun _ hc => le_of_isDigit (isDigit_of_mem_ofNat hc)

theorem le_of_mem_ofInt {n : Int} : ∀ c ∈ Text.ofInt n, 32 ≤ c.toNat := by
  unfold Text.ofInt
  by_cases hn : n < 0
  · rw [if_pos hn]
    simpa using le_of_mem_ofNat
  · rw [if_neg hn]
    exact le_of_mem_ofNat

theorem le_of_mem_compactNumber {whole : Int} {places : Nat} :
    ∀ c ∈ compactNumber whole places, 32 ≤ c.toNat := by
  unfold compactNumber
  by_cases hplaces : places = 0
  · rw [if_pos hplaces]
    exact le_of_mem_ofInt
  · rw [if_neg hplaces]
    simpa [or_imp, forall_and] using ⟨le_of_mem_ofInt, le_of_mem_ofNat⟩

theorem le_of_mem_intercalate {texts : List Text} (h : ∀ text ∈ texts, ∀ c ∈ text, 32 ≤ c.toNat) :
    ∀ c ∈ [','].intercalate texts, 32 ≤ c.toNat := by
  intro c hc
  rcases mem_intercalate hc with rfl | ⟨text, htext, hmem⟩
  · decide
  · exact h text htext c hmem

/-- **The text of a value holds no control character.** -/
theorem le_of_mem_compact (v : Json) : ∀ c ∈ compact v, 32 ≤ c.toNat := by
  induction v using inductionOn with
  | null => simp [compact]
  | boolean b => cases b <;> simp [compact]
  | number whole places =>
    rw [compact]
    exact le_of_mem_compactNumber
  | string text =>
    rw [compact]
    exact Quoted.le_of_mem_quote
  | array items ih =>
    have hlist : ∀ c ∈ [','].intercalate (items.map compact), 32 ≤ c.toNat :=
      le_of_mem_intercalate (List.forall_mem_map.mpr ih)
    simpa [compact, compactItems_eq, or_imp, forall_and] using hlist
  | object members ih =>
    have hmembers : ∀ member ∈ members, ∀ c ∈ compactMember member, 32 ≤ c.toNat := by
      intro member hmember
      simpa [compactMember, or_imp, forall_and] using
        ⟨Quoted.le_of_mem_quote, ih member hmember⟩
    have hlist : ∀ c ∈ [','].intercalate (members.map compactMember), 32 ≤ c.toNat :=
      le_of_mem_intercalate (List.forall_mem_map.mpr hmembers)
    simpa [compact, compactMembers_eq, or_imp, forall_and] using hlist

end Json
end DiceTower
