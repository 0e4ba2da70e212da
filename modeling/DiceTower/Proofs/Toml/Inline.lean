/-
# Values without tables

A value without tables is written behind its key or as an item of an array,
and what is written of it is the same in every place (`PlacedText`,
`Value.Inline.placedText`). Where a value is expected its text is read as the
value: a string as one quoted token, a number or a truth value as one word,
and an array item by item up to its bracket, by induction on the value
(`Draft.readsBack`).

Reading is followed token by token: `Draft.readOn?` is the table that a draft
comes to when a text follows, and each piece of text takes one draft to
another in front of every text that may stand behind it.

Key definitions: `Toml.Value.PlacedText`, `Toml.Draft.readOn?`,
`Toml.Draft.ReadsBack`.
Key theorems: `Toml.Value.Inline.placedText`, `Toml.Value.Inline.render?_eq`,
`Toml.Draft.readsBack`.
-/
import DiceTower.Toml.Readable
import DiceTower.Toml.Writer
import DiceTower.Proofs.Toml.Numbers
import DiceTower.Proofs.Toml.Tokens

namespace DiceTower
namespace Toml

open Text

/-! ### Items and entries one by one -/

theorem itemsHoldTable_eq : ∀ items : List Value, itemsHoldTable items = items.any Value.holdsTable
  | [] => rfl
  | item :: rest => by rw [itemsHoldTable, itemsHoldTable_eq rest, List.any_cons]

theorem arrangedItems_eq : ∀ items : List Value, arrangedItems items = items.map Value.arranged
  | [] => rfl
  | item :: rest => by rw [arrangedItems, arrangedItems_eq rest, List.map_cons]

/-- Entries stay as they are if there is nothing to put in order in their values. -/
theorem arrangedEntries_eq_self : ∀ {entries : Table}, (∀ e ∈ entries, e.2.arranged = e.2) →
    arrangedEntries entries = entries
  | [], _ => rfl
  | (key, value) :: rest, h => by
    have hrest := arrangedEntries_eq_self fun e he => h e (List.mem_cons_of_mem _ he)
    rw [arrangedEntries, hrest, h (key, value) List.mem_cons_self]

theorem itemsWritable_eq : ∀ items : List Value, itemsWritable items = items.all Value.isWritable
  | [] => rfl
  | item :: rest => by rw [itemsWritable, itemsWritable_eq rest, List.all_cons]

/-! ### Values without tables -/

namespace Value

namespace Inline

variable {v : Value}

theorem isTable_eq (h : v.Inline) : v.isTable = false := by
  cases h <;> rfl

theorem holdsTable_eq (h : v.Inline) : v.holdsTable = false := by
  induction h with
  | array _ ih =>
    rw [holdsTable, itemsHoldTable_eq]
    exact List.any_eq_false.mpr fun item hitem => by simp [ih item hitem]
  | _ => rfl

theorem isKeyed_eq (h : v.Inline) : v.isKeyed = true := isKeyed_of_not_holdsTable h.holdsTable_eq

theorem isPlain_eq (h : v.Inline) : v.isPlain = true := by
  cases h with
  | @array items hitems =>
    have hany : items.any isTable = false :=
      List.any_eq_false.mpr fun item hitem => by simp [(hitems item hitem).isTable_eq]
    simp [isPlain, isTable, isTableArray, hany]
  | _ => rfl

/-- There is nothing to put in order. -/
theorem arranged_eq (h : v.Inline) : v.arranged = v := by
  induction h with
  | array _ ih => rw [arranged, arrangedItems_eq, List.map_congr_left ih, List.map_id']
  | _ => rfl

theorem isWritable_eq (h : v.Inline) : v.isWritable = true := by
  induction h with
  | array _ ih =>
    rw [isWritable, itemsWritable_eq]
    exact List.all_eq_true.mpr ih
  | _ => rfl

/-- A value without tables can be written. -/
theorem render?_eq (h : v.Inline) : v.render? = some (v.renderAt []) := by
  rw [render?, h.arranged_eq, text?, if_pos h.isWritable_eq]

end Inline

/-! ### The text of a value -/

/-- The place has a say only in what stands in front of the value and behind it. -/
def PlacedText (v : Value) : Prop :=
  ∀ place : Place, v.renderAt place = place.opening ++ v.renderAt [] ++ place.lineEnd

theorem renderItems_cons_of_placedText {item : Value} (h : PlacedText item) (place : Place)
    (first : Bool) (rest : List Value) : renderItems place first (item :: rest) =
      Place.opening (.item first :: place) ++ item.renderAt [] ++ renderItems place false rest := by
  rw [renderItems, h (.item first :: place), Place.lineEnd, List.append_nil]
  · intro key first rest h
    cases h

/-- Items behind the first are written alike in every place. -/
theorem renderItems_eq (place : Place) : ∀ {items : List Value},
    (∀ item ∈ items, PlacedText item) → renderItems place false items = renderItems [] false items
  | [], _ => rfl
  | item :: rest, h => by
    have hrest := renderItems_eq place fun other hother => h other (List.mem_cons_of_mem _ hother)
    have hitem := h item List.mem_cons_self
    rw [renderItems_cons_of_placedText hitem, renderItems_cons_of_placedText hitem, hrest]
    rfl

/-- The text of an array: its items between brackets. -/
theorem renderAt_array {item : Value} {rest : List Value}
    (h : ∀ other ∈ item :: rest, PlacedText other) (hitem : item.isTable = false) (place : Place) :
    (Value.array (item :: rest)).renderAt place =
      place.opening ++ ('[' :: (item.renderAt [] ++ (renderItems [] false rest ++ [']']))) ++
        place.lineEnd := by
  have hrest : ∀ other ∈ rest, PlacedText other :=
    fun other hother => h other (List.mem_cons_of_mem _ hother)
  rw [renderAt, renderItems_cons_of_placedText (h item List.mem_cons_self), renderItems_eq _ hrest,
    arrayEnd, hitem, Place.opening]
  simp

/-- **A value without tables is written alike in every place.** -/
theorem Inline.placedText {v : Value} (h : v.Inline) : PlacedText v := by
  induction h with
  | @array items hitems ih =>
    intro place
    cases items with
    | nil => simp [renderAt, renderItems, arrayEnd, Place.plain, Place.opening, Place.lineEnd]
    | cons item rest =>
      have hitem := (hitems item List.mem_cons_self).isTable_eq
      rw [renderAt_array ih hitem, renderAt_array ih hitem]
      simp [Place.opening, Place.lineEnd]
  | _ =>
    intro place
    simp [renderAt, Place.plain, Place.opening, Place.lineEnd]

end Value

/-! ### Words for values -/

theorem isWordChar_of_isDigit {c : Char} (h : c.isDigit = true) : isWordChar c = true := by
  simp [isWordChar, isBare, Char.isAlphanum, h]

theorem isWord_of_isDigits {run : Text} (h : IsDigits run) : IsWord run :=
  ⟨h.1, fun c hc => isWordChar_of_isDigit (h.2 c hc)⟩

theorem isWord_renderSign {text : Text} (negative : Bool) (h : IsWord text) :
    IsWord (Binary64.renderSign negative ++ text) := by
  have hminus : IsWord ['-'] := isWord_of_all (by decide) (by decide)
  cases negative with
  | true => exact hminus.append h.2
  | false => exact h

theorem isWord_ofInt (n : Int) : IsWord (ofInt n) := by
  have hdigits := isWord_of_isDigits (isDigits_ofNat n.natAbs)
  unfold ofInt
  split
  · exact isWord_renderSign true hdigits
  · exact hdigits

theorem isWord_render (x : Binary64) : IsWord x.render := by
  cases x with
  | finite negative ordinal =>
    refine isWord_renderSign negative ?_
    split
    · exact isWord_of_all (by decide) (by decide)
    · rename_i hne
      obtain ⟨whole, fraction, hp⟩ := exists_positional
        (Binary64.shortest_fst_ne_zero (Nat.pos_of_ne_zero hne)) (Binary64.shortest ordinal).2
      have hpoint : IsWord ['.'] := isWord_of_all (by decide) (by decide)
      have hbehind : IsWord ('.' :: fraction) :=
        hpoint.append (isWord_of_isDigits hp.fraction_isDigits).2
      rw [hp.text_eq]
      exact (isWord_of_isDigits hp.whole_isDigits).append hbehind.2
  | infinite negative => exact isWord_renderSign negative (isWord_of_all (by decide) (by decide))
  | nan negative => exact isWord_renderSign negative (isWord_of_all (by decide) (by decide))

theorem isWord_writeBoolean (b : Bool) : IsWord (writeBoolean b) := by
  cases b <;> exact isWord_of_all (by decide) (by decide)

/-- A word that stands for a number stands for no truth value. -/
theorem Draft.scalar?_of_number? {word : Text} {value : Value} (h : number? word = some value) :
    Draft.scalar? word = some value := by
  have htrue : word ≠ "true".toList := by
    rintro rfl
    cases h
  have hfalse : word ≠ "false".toList := by
    rintro rfl
    cases h
  rw [Draft.scalar?, if_neg htrue, if_neg hfalse, h]

theorem Place.plain_nil (text : Text) : Place.plain [] text = text := by
  simp [Place.plain, Place.opening, Place.lineEnd]

/-! ### Reading on -/

namespace Draft

/-- The table that a draft comes to when the text follows. -/
def readOn? (d : Draft) (text : Text) : Option Table :=
  (tokensFrom? .between text).bind fun tokens => (d.run? tokens).bind finish

/-- What is expected next has no say in where a value goes. -/
theorem deliver_expecting (d : Draft) (e : Expected) (key : Text) (value : Value)
    (arrays : List (List Value)) :
    (d.expecting e).deliver key value arrays = d.deliver key value arrays := by
  cases arrays <;> rfl

variable {d : Draft} {text rest : Text} {token : Token}

/-- A text that is one token is one step. -/
theorem readOn?_of_token
    (h : tokensFrom? .between (text ++ rest) = (tokensFrom? .between rest).map (token :: ·)) :
    d.readOn? (text ++ rest) = (d.step token).bind (·.readOn? rest) := by
  unfold readOn?
  rw [h]
  cases htokens : tokensFrom? .between rest with
  | none => cases d.step token <;> rfl
  | some tokens =>
    simp only [Option.map_some, Option.bind_some, run?]
    cases d.step token <;> rfl

/-- A sign is one token. -/
theorem readOn?_sign {c : Char} (h : Mode.start c = some (.between, [token])) (rest : Text) :
    d.readOn? (c :: rest) = (d.step token).bind (·.readOn? rest) := by
  have htoken : tokensFrom? .between ([c] ++ rest) =
      (tokensFrom? .between rest).map (token :: ·) := by
    rw [List.singleton_append, tokensFrom?, Mode.step, h]
    rfl
  exact readOn?_of_token htoken

theorem readOn?_space (rest : Text) : d.readOn? (' ' :: rest) = d.readOn? rest := by
  have h : tokensFrom? .between (' ' :: rest) = tokensFrom? .between rest := Option.map_id'
  rw [readOn?, h, readOn?]

/-- What is read of the text of the value, where a value is expected, is the value. -/
def ReadsBack (v : Value) : Prop :=
  ∀ (d : Draft) (key : Text) (arrays : List (List Value)) {rest : Text}, NoWordAhead rest →
    (d.expecting (.value key arrays)).readOn? (v.renderAt [] ++ rest) =
      (d.deliver key v arrays).bind (·.readOn? rest)

theorem readsBack_of_word {v : Value} {text : Text} (htext : v.renderAt [] = text)
    (hword : IsWord text) (hscalar : scalar? text = some v) : ReadsBack v := by
  intro d key arrays rest hrest
  rw [htext, readOn?_of_token (tokensFrom?_of_word hword hrest), ← deliver_expecting d (.value key arrays)]
  simp only [step, expecting, stepValue, hscalar]

theorem readsBack_string (text : Text) : ReadsBack (.string text) := by
  intro d key arrays rest _
  rw [Value.renderAt, Place.plain_nil, readOn?_of_token (tokensFrom?_quote text rest),
    ← deliver_expecting d (.value key arrays)]
  rfl

/-- Behind an item stands a comma or the bracket. -/
theorem noWordAhead_renderItems {items : List Value} (h : ∀ item ∈ items, Value.PlacedText item)
    (rest : Text) : NoWordAhead (renderItems [] false items ++ ']' :: rest) := by
  cases items with
  | nil => exact noWordAhead_cons (by decide) rest
  | cons item others =>
    rw [Value.renderItems_cons_of_placedText (h item List.mem_cons_self)]
    exact noWordAhead_cons (by decide) _

/-- Items are read one behind the other up to the bracket. -/
theorem readOn?_renderItems (key : Text) (arrays : List (List Value)) : ∀ {items : List Value},
    (∀ item ∈ items, Value.PlacedText item) → (∀ item ∈ items, ReadsBack item) →
    ∀ (d : Draft) (read : List Value) (rest : Text),
      (d.expecting (.separator key (read :: arrays))).readOn?
          (renderItems [] false items ++ ']' :: rest) =
        (d.deliver key (.array (read.reverse ++ items)) arrays).bind (·.readOn? rest)
  | [], _, _, d, read, rest => by
    rw [renderItems, List.nil_append, readOn?_sign rfl, List.append_nil,
      ← deliver_expecting d (.separator key (read :: arrays))]
    rfl
  | item :: others, hplaced, hreads, d, read, rest => by
    have hothers : ∀ other ∈ others, Value.PlacedText other :=
      fun other hother => hplaced other (List.mem_cons_of_mem _ hother)
    have hahead : NoWordAhead (renderItems [] false others ++ ']' :: rest) :=
      noWordAhead_renderItems hothers rest
    have htext : renderItems [] false (item :: others) ++ ']' :: rest =
        ',' :: ' ' :: (item.renderAt [] ++ (renderItems [] false others ++ ']' :: rest)) := by
      rw [Value.renderItems_cons_of_placedText (hplaced item List.mem_cons_self)]
      simp [Place.opening]
    have hcomma : (d.expecting (.separator key (read :: arrays))).step .comma =
        some (d.expecting (.value key (read :: arrays))) := rfl
    have hdeliver : d.deliver key item (read :: arrays) =
        some (d.expecting (.separator key ((item :: read) :: arrays))) := rfl
    have ih := readOn?_renderItems key arrays hothers
      (fun other hother => hreads other (List.mem_cons_of_mem _ hother)) d (item :: read) rest
    -- the comma, the item, and then the others with the item among those that were read
    rw [htext, readOn?_sign rfl, hcomma, Option.bind_some, readOn?_space,
      hreads item List.mem_cons_self d key _ hahead, hdeliver, Option.bind_some, ih,
      List.reverse_cons, List.append_assoc, List.singleton_append]

/-- **A value without tables is read as it was written.** -/
theorem readsBack {v : Value} (h : v.Inline) : ReadsBack v := by
  induction h with
  | string text => exact readsBack_string text
  | integer hfits =>
    have hscalar := scalar?_of_number? (number?_ofInt hfits)
    exact readsBack_of_word (Place.plain_nil _) (isWord_ofInt _) hscalar
  | float hrange =>
    have hscalar := scalar?_of_number? (number?_render hrange)
    exact readsBack_of_word (Place.plain_nil _) (isWord_render _) hscalar
  | boolean b =>
    have hscalar : scalar? (writeBoolean b) = some (.boolean b) := by
      cases b <;> rfl
    exact readsBack_of_word (Place.plain_nil _) (isWord_writeBoolean b) hscalar
  | @array items hitems ih =>
    intro d key arrays rest hrest
    have hopen : (d.expecting (.value key arrays)).step .opening =
        some (d.expecting (.value key ([] :: arrays))) := rfl
    cases items with
    | nil =>
      show (d.expecting (.value key arrays)).readOn? ('[' :: ']' :: rest) = _
      rw [readOn?_sign rfl, hopen, Option.bind_some, readOn?_sign rfl,
        ← deliver_expecting d (.value key ([] :: arrays))]
      rfl
    | cons item others =>
      have hplaced : ∀ other ∈ item :: others, Value.PlacedText other :=
        fun other hother => (hitems other hother).placedText
      have hothers : ∀ other ∈ others, Value.PlacedText other :=
        fun other hother => hplaced other (List.mem_cons_of_mem _ hother)
      have htext : (Value.array (item :: others)).renderAt [] ++ rest =
          '[' :: (item.renderAt [] ++ (renderItems [] false others ++ ']' :: rest)) := by
        rw [Value.renderAt_array hplaced (hitems item List.mem_cons_self).isTable_eq]
        simp [Place.opening, Place.lineEnd]
      have hdeliver : d.deliver key item ([] :: arrays) =
          some (d.expecting (.separator key ([item] :: arrays))) := rfl
      rw [htext, readOn?_sign rfl, hopen, Option.bind_some,
        ih item List.mem_cons_self d key _ (noWordAhead_renderItems hothers rest), hdeliver,
        Option.bind_some, readOn?_renderItems key arrays hothers
          (fun other hother => ih other (List.mem_cons_of_mem _ hother))]
      rfl

end Draft

end Toml
end DiceTower
