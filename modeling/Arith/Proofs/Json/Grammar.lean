/-
# Texts and the JSON values that they spell

The grammar of JSON, as a relation between a text, a value and what is left
of the text behind the value (`Spells`), with one rule for each alternative.
Blanks may stand in front of every sign, a string may be spelled with any of
the escapes, and a numeral stands for the double nearest to it.  The two
truth values are left out, since there are no values for them.

Nothing here knows how a text is written, and a text may be spelled with
rules that no writer uses.

One relation does for values, keys with values, and lists of both, with an
index that says which part of a text is meant (`Part`); what a part spells
depends on the index.  So there is one induction for all of them
(`Spells.unique`), whose cases are told apart by the first sign that is not
a blank.

**Proved here.**

    a numeral stands for one number          (`Numeral.unique`)
    a text spells a part in one way at most  (`Spells.unique`)
    a text has one value at most             (`Denotes.unique`)
-/
import Arith.Json
import Arith.Number.Literal
import Arith.Pattern.Escape
import Arith.Proofs.Token.Lexeme

namespace Arith.Json

/-! ## Numerals -/

/-- The digits in front of the point: a single zero, or digits that do not start with one. -/
inductive Whole : List Char → Prop where
  | zero : Whole ['0']
  | digits {c : Char} {cs : List Char} (first : c ≠ '0') (digit : isDecimalDigit c)
      (further : ∀ x ∈ cs, isDecimalDigit x) : Whole (c :: cs)

/-- The point, if there is one, and the digits behind it. -/
inductive Fraction : List Char → List Char → Prop where
  | none : Fraction [] []
  | point {ds : List Char} (ne : ds ≠ []) (digits : ∀ x ∈ ds, isDecimalDigit x) :
      Fraction ('.' :: ds) ds

/-- The number that digits behind an optional sign stand for. -/
def signedValue (cs : List Char) : Int :=
  if (takeSign cs).1 then -digitsValue (takeSign cs).2 else digitsValue (takeSign cs).2

/-- The exponent behind the digits, if there is one. -/
inductive Exponent : List Char → Int → Prop where
  | none : Exponent [] 0
  | letter {c : Char} {cs : List Char} (letter : c = 'e' ∨ c = 'E') (ne : (takeSign cs).2 ≠ [])
      (digits : ∀ x ∈ (takeSign cs).2, isDecimalDigit x) : Exponent (c :: cs) (signedValue cs)

/-- A numeral without a sign, and the decimal fraction that it stands for. -/
inductive Unsigned : List Char → Decimal → Prop where
  | parts {whole fraction digits exponent : List Char} {e : Int} (front : Whole whole)
      (behind : Fraction fraction digits) (scale : Exponent exponent e) :
      Unsigned (whole ++ (fraction ++ exponent)) ⟨digitsValue (whole ++ digits), e - digits.length⟩

/-- A numeral: whether it has a minus sign, and the fraction behind that. -/
inductive Numeral : List Char → Bool → Decimal → Prop where
  | plain {cs : List Char} {d : Decimal} (unsigned : Unsigned cs d) : Numeral cs false d
  | minus {cs : List Char} {d : Decimal} (unsigned : Unsigned cs d) : Numeral ('-' :: cs) true d

/-- Whether a character may stand in a numeral. -/
def isNumeralSign (c : Char) : Bool :=
  isDecimalDigit c || c == '.' || c == 'e' || c == 'E' || c == '+' || c == '-'

/-! ## Strings -/

/-- What a letter or sign stands for behind a backslash. -/
def shortEscape? : Char → Option Char
  | '"' => some '"'
  | '\\' => some '\\'
  | '/' => some '/'
  | 'b' => some '\x08'
  | 'f' => some '\x0c'
  | 'n' => some '\n'
  | 'r' => some '\r'
  | 't' => some '\t'
  | _ => none

/-- The code unit that is spelled by a backslash, the letter `u` and four hexadecimal digits, and
what is left behind these. -/
def codeUnit? : List Char → Option (Nat × List Char)
  | '\\' :: 'u' :: a :: b :: c :: d :: rest => do
    let a ← Pattern.hexValue? a
    let b ← Pattern.hexValue? b
    let c ← Pattern.hexValue? c
    let d ← Pattern.hexValue? d
    return (16 * (16 * (16 * a + b) + c) + d, rest)
  | _ => none

/-- The ways to spell a character of a string: as it is, by a letter behind a backslash, or by its
code units in UTF-16, of which there are one or two. -/
inductive SpellsChar : Char → List Char → List Char → Prop where
  | plain {c : Char} {rest : List Char} (printable : 0x20 ≤ c.toNat) (quote : c ≠ '"')
      (backslash : c ≠ '\\') : SpellsChar c (c :: rest) rest
  | short {c x : Char} {rest : List Char} (stands : shortEscape? x = some c) :
      SpellsChar c ('\\' :: x :: rest) rest
  | unit {n : Nat} {cs rest : List Char} (reads : codeUnit? cs = some (n, rest))
      (valid : n.isValidChar) : SpellsChar (Char.ofNat n) cs rest
  | pair {high low : Nat} {cs more rest : List Char} (leads : codeUnit? cs = some (high, more))
      (trails : codeUnit? more = some (low, rest)) (leading : 0xd800 ≤ high ∧ high < 0xdc00)
      (trailing : 0xdc00 ≤ low ∧ low < 0xe000) :
      SpellsChar (Char.ofNat (0x10000 + 0x400 * (high - 0xd800) + (low - 0xdc00))) cs rest

/-- The characters of a string, from behind the opening quote to the closing one. -/
inductive SpellsChars : List Char → List Char → List Char → Prop where
  | close {rest : List Char} : SpellsChars [] ('"' :: rest) rest
  | char {c : Char} {text cs more rest : List Char} (first : SpellsChar c cs more)
      (further : SpellsChars text more rest) : SpellsChars (c :: text) cs rest

/-! ## Values -/

/-- Whether a character is a blank between the signs of a text. -/
def isGap (c : Char) : Bool := c == ' ' || c == '\t' || c == '\n' || c == '\r'

/-- A text without the blanks in front of it. -/
def skip (cs : List Char) : List Char := cs.dropWhile isGap

/-- No numeral goes on here. -/
def Stops (rest : List Char) : Prop := ∀ c ∈ rest.head?, ¬ isNumeralSign c

/-- The values without parts.  A numeral goes on as long as it can; one that is beyond all finite
doubles has no value. -/
inductive SpellsScalar : Json → List Char → List Char → Prop where
  | null {rest : List Char} : SpellsScalar .null ('n' :: 'u' :: 'l' :: 'l' :: rest) rest
  | number {cs numeral rest : List Char} {negative : Bool} {d : Decimal}
      (starts : cs = numeral ++ rest)
      (reads : Numeral numeral negative d) (finite : d.roundedBits < infinityBits)
      (stops : Stops rest) :
      SpellsScalar (.number negative d.roundedBits) cs rest
  | string {text cs rest : List Char} (chars : SpellsChars text cs rest) :
      SpellsScalar (.string (String.ofList text)) ('"' :: cs) rest

/-- What is listed between brackets, and between braces. -/
inductive Element where
  | item
  | member

/-- What an element spells: a value, or a key and a value. -/
abbrev Element.Yield : Element → Type
  | .item => Json
  | .member => String × Json

/-- The sign behind the last element. -/
def Element.closing : Element → Char
  | .item => ']'
  | .member => '\x7d'

/-- The parts of a text: an element, what stands behind an opening sign, and what stands behind an
element that is listed. -/
inductive Part where
  | one (element : Element)
  | listed (element : Element)
  | further (element : Element)

/-- What a part of a text spells. -/
abbrev Part.Yield : Part → Type
  | .one element => element.Yield
  | .listed element => List element.Yield
  | .further element => List element.Yield

/-- A text starts with a part that spells something, and this is left of it. -/
inductive Spells : (part : Part) → part.Yield → List Char → List Char → Prop where
  | scalar {j : Json} {cs rest : List Char} (scalar : SpellsScalar j (skip cs) rest) :
      Spells (.one .item) j cs rest
  | list {js : List Json} {cs more rest : List Char} (opens : skip cs = '[' :: more)
      (items : Spells (.listed .item) js more rest) : Spells (.one .item) (.list js) cs rest
  | object {ms : List (String × Json)} {cs more rest : List Char} (opens : skip cs = '\x7b' :: more)
      (members : Spells (.listed .member) ms more rest) : Spells (.one .item) (.object ms) cs rest
  | member {text : List Char} {j : Json} {cs quoted behind more rest : List Char}
      (quote : skip cs = '"' :: quoted) (key : SpellsChars text quoted behind)
      (colon : skip behind = ':' :: more) (value : Spells (.one .item) j more rest) :
      Spells (.one .member) (String.ofList text, j) cs rest
  | none {element : Element} {cs rest : List Char} (closes : skip cs = element.closing :: rest) :
      Spells (.listed element) [] cs rest
  | some {element : Element} {y : element.Yield} {ys : List element.Yield}
      {cs more rest : List Char}
      (first : Spells (.one element) y cs more) (further : Spells (.further element) ys more rest) :
      Spells (.listed element) (y :: ys) cs rest
  | last {element : Element} {cs rest : List Char} (closes : skip cs = element.closing :: rest) :
      Spells (.further element) [] cs rest
  | next {element : Element} {y : element.Yield} {ys : List element.Yield}
      {cs more behind rest : List Char} (comma : skip cs = ',' :: more)
      (next : Spells (.one element) y more behind)
      (further : Spells (.further element) ys behind rest) :
      Spells (.further element) (y :: ys) cs rest

/-- A whole text is well formed and has this value. -/
def Denotes (text : String) (j : Json) : Prop :=
  ∃ rest, Spells (.one .item) j text.toList rest ∧ skip rest = []

/-! ## A numeral has one value

The parts of a numeral are runs of characters, and each run ends where a
character stands that cannot belong to it.  So two ways to cut a numeral
into its parts cut it alike. -/

variable {cs cs' rest rest' : List Char}

/-- Two runs of characters of a kind that end where other characters stand are the same if the texts
are. -/
theorem run_inj {p : Char → Bool} (all : ∀ c ∈ cs, p c) (stops : ∀ c ∈ rest.head?, ¬ p c)
    (all' : ∀ c ∈ cs', p c) (stops' : ∀ c ∈ rest'.head?, ¬ p c) (same : cs ++ rest = cs' ++ rest') :
    cs = cs' ∧ rest = rest' := by
  obtain rfl : cs = cs' := by
    rw [← takeWhile_append_of_stops all stops, same, takeWhile_append_of_stops all' stops']
  exact ⟨rfl, List.append_cancel_left same⟩

theorem Whole.all_digits {whole : List Char} (h : Whole whole) : ∀ c ∈ whole, isDecimalDigit c := by
  cases h with
  | zero => exact List.forall_mem_singleton.mpr rfl
  | digits _ digit further => exact List.forall_mem_cons.mpr ⟨digit, further⟩

theorem Whole.head {whole : List Char} (h : Whole whole) :
    ∃ c more, whole = c :: more ∧ isDecimalDigit c := by
  cases h with
  | zero => exact ⟨_, _, rfl, rfl⟩
  | digits _ digit => exact ⟨_, _, rfl, digit⟩

section Parts

variable {fraction fraction' digits digits' exponent exponent' : List Char} {e e' : Int}

theorem Exponent.head (h : Exponent exponent e) : ∀ c ∈ exponent.head?, c = 'e' ∨ c = 'E' := by
  cases h with
  | none => simp
  | letter letter => simpa using letter

theorem Exponent.no_digit (h : Exponent exponent e) : ∀ c ∈ exponent.head?, ¬ isDecimalDigit c := by
  intro c hc
  obtain rfl | rfl := h.head c hc <;> decide

theorem Exponent.no_point (h : Exponent exponent e) (cs : List Char) : exponent ≠ '.' :: cs := by
  rintro rfl
  exact absurd (h.head '.' rfl) (by decide)

theorem Fraction.no_digit (behind : Fraction fraction digits) (scale : Exponent exponent e) :
    ∀ c ∈ (fraction ++ exponent).head?, ¬ isDecimalDigit c := by
  cases behind with
  | none => exact scale.no_digit
  | point =>
    intro c hc
    obtain rfl : '.' = c := Option.some.inj hc
    decide

theorem Exponent.unique (h : Exponent exponent e) (h' : Exponent exponent e') : e = e' := by
  cases h <;> cases h' <;> rfl

theorem Fraction.unique (behind : Fraction fraction digits) (scale : Exponent exponent e)
    (behind' : Fraction fraction' digits') (scale' : Exponent exponent' e')
    (same : fraction ++ exponent = fraction' ++ exponent') : digits = digits' ∧ e = e' := by
  cases behind with
  | none =>
    cases behind' with
    | none =>
      obtain rfl : exponent = exponent' := same
      exact ⟨rfl, scale.unique scale'⟩
    | point => exact absurd same (scale.no_point _)
  | point _ all =>
    cases behind' with
    | none => exact absurd same.symm (scale'.no_point _)
    | point _ all' =>
      obtain ⟨rfl, rfl⟩ := run_inj all scale.no_digit all' scale'.no_digit (List.cons.inj same).2
      exact ⟨rfl, scale.unique scale'⟩

end Parts

variable {d d' : Decimal}

theorem Unsigned.head (h : Unsigned cs d) : ∃ c more, cs = c :: more ∧ isDecimalDigit c := by
  obtain ⟨front, -, -⟩ := h
  obtain ⟨c, more, rfl, digit⟩ := front.head
  exact ⟨c, _, rfl, digit⟩

theorem Unsigned.no_minus (h : Unsigned ('-' :: cs) d) : False := by
  obtain ⟨c, more, e, digit⟩ := h.head
  obtain ⟨rfl, -⟩ := List.cons.inj e
  exact absurd digit (by decide)

theorem Unsigned.unique (h : Unsigned cs d) (h' : Unsigned cs d') : d = d' := by
  cases h with | @parts whole fraction _ exponent _ front behind scale =>
  generalize same : whole ++ (fraction ++ exponent) = text at h'
  obtain ⟨front', behind', scale'⟩ := h'
  obtain ⟨rfl, ends⟩ := run_inj front.all_digits (behind.no_digit scale) front'.all_digits
    (behind'.no_digit scale') same
  obtain ⟨rfl, rfl⟩ := behind.unique scale behind' scale' ends
  rfl

theorem Numeral.unique {negative negative' : Bool} (h : Numeral cs negative d)
    (h' : Numeral cs negative' d') : negative = negative' ∧ d = d' := by
  cases h with
  | plain unsigned =>
    cases h' with
    | plain unsigned' => exact ⟨rfl, unsigned.unique unsigned'⟩
    | minus => exact unsigned.no_minus.elim
  | minus unsigned =>
    cases h' with
    | plain unsigned' => exact unsigned'.no_minus.elim
    | minus unsigned' => exact ⟨rfl, unsigned.unique unsigned'⟩

/-! ## A numeral is made of its signs -/

theorem isNumeralSign_of_digit {c : Char} (h : isDecimalDigit c) : isNumeralSign c := by
  simp only [isNumeralSign, h, Bool.true_or]

theorem takeSign_signs (digits : ∀ c ∈ (takeSign cs).2, isDecimalDigit c) :
    ∀ c ∈ cs, isNumeralSign c := by
  unfold takeSign at digits
  split at digits
  case h_3 => exact fun c hc => isNumeralSign_of_digit (digits c hc)
  all_goals exact List.forall_mem_cons.mpr ⟨rfl, fun c hc => isNumeralSign_of_digit (digits c hc)⟩

theorem Unsigned.signs (h : Unsigned cs d) : ∀ c ∈ cs, isNumeralSign c := by
  obtain ⟨front, behind, scale⟩ := h
  refine List.forall_mem_append.mpr ⟨fun c hc => isNumeralSign_of_digit (front.all_digits c hc),
    List.forall_mem_append.mpr ⟨?_, ?_⟩⟩
  · cases behind with
    | none => exact List.forall_mem_nil _
    | point _ digits =>
      exact List.forall_mem_cons.mpr ⟨rfl, fun c hc => isNumeralSign_of_digit (digits c hc)⟩
  · cases scale with
    | none => exact List.forall_mem_nil _
    | letter letter _ digits =>
      refine List.forall_mem_cons.mpr ⟨?_, takeSign_signs digits⟩
      obtain rfl | rfl := letter <;> rfl

theorem Numeral.signs {negative : Bool} (h : Numeral cs negative d) :
    ∀ c ∈ cs, isNumeralSign c := by
  cases h with
  | plain unsigned => exact unsigned.signs
  | minus unsigned => exact List.forall_mem_cons.mpr ⟨rfl, unsigned.signs⟩

theorem Numeral.head {negative : Bool} (h : Numeral cs negative d) :
    ∃ c more, cs = c :: more ∧ isNumeralSign c := by
  have signs := h.signs
  cases h with
  | plain unsigned =>
    obtain ⟨c, more, rfl, -⟩ := unsigned.head
    exact ⟨c, more, rfl, signs c List.mem_cons_self⟩
  | minus => exact ⟨_, _, rfl, rfl⟩

/-- What starts with another sign starts with no numeral. -/
theorem Numeral.not_starts {c : Char} {numeral : List Char} {negative : Bool}
    (h : Numeral numeral negative d) (other : ¬ isNumeralSign c) : c :: cs ≠ numeral ++ rest := by
  obtain ⟨x, more, rfl, sign⟩ := h.head
  intro e
  exact other ((List.cons.inj e).1 ▸ sign)

/-! ## A string has one value -/

theorem codeUnit?_plain {c : Char} (backslash : c ≠ '\\') : codeUnit? (c :: cs) = none := by
  unfold codeUnit?
  split
  next e => exact absurd (List.cons.inj e).1 backslash
  next => rfl

theorem codeUnit?_short {c x : Char} (stands : shortEscape? x = some c) :
    codeUnit? ('\\' :: x :: cs) = none := by
  unfold codeUnit?
  split
  next e =>
    obtain rfl : x = 'u' := (List.cons.inj (List.cons.inj e).2).1
    cases stands
  next => rfl

/-- The code units of a pair stand for no character by themselves. -/
theorem not_valid_leading {n : Nat} (leading : 0xd800 ≤ n ∧ n < 0xdc00) : ¬ n.isValidChar := by
  rintro (low | high) <;> omega

/-- No two rules spell a character alike: what follows a backslash tells which rule it is. -/
theorem SpellsChar.unique {c c' : Char} (h : SpellsChar c cs rest) (h' : SpellsChar c' cs rest') :
    c = c' ∧ rest = rest' := by
  cases h with
  | plain _ _ backslash =>
    cases h' with
    | plain => exact ⟨rfl, rfl⟩
    | short => exact absurd rfl backslash
    | unit reads => cases reads.symm.trans (codeUnit?_plain backslash)
    | pair leads => cases leads.symm.trans (codeUnit?_plain backslash)
  | short stands =>
    cases h' with
    | plain _ _ backslash => exact absurd rfl backslash
    | short stands' => exact ⟨Option.some.inj (stands.symm.trans stands'), rfl⟩
    | unit reads => cases reads.symm.trans (codeUnit?_short stands)
    | pair leads => cases leads.symm.trans (codeUnit?_short stands)
  | unit reads valid =>
    cases h' with
    | plain _ _ backslash => cases reads.symm.trans (codeUnit?_plain backslash)
    | short stands => cases reads.symm.trans (codeUnit?_short stands)
    | unit reads' =>
      cases reads.symm.trans reads'
      exact ⟨rfl, rfl⟩
    | pair leads _ leading =>
      cases reads.symm.trans leads
      exact absurd valid (not_valid_leading leading)
  | pair leads trails leading =>
    cases h' with
    | plain _ _ backslash => cases leads.symm.trans (codeUnit?_plain backslash)
    | short stands => cases leads.symm.trans (codeUnit?_short stands)
    | unit reads valid =>
      cases leads.symm.trans reads
      exact absurd valid (not_valid_leading leading)
    | pair leads' trails' =>
      cases leads.symm.trans leads'
      cases trails.symm.trans trails'
      exact ⟨rfl, rfl⟩

theorem SpellsChar.not_quote {c : Char} (h : SpellsChar c ('"' :: cs) rest) : False := by
  cases h with
  | plain _ quote => exact quote rfl
  | unit reads => cases reads.symm.trans (@codeUnit?_plain cs '"' (by decide))
  | pair leads => cases leads.symm.trans (@codeUnit?_plain cs '"' (by decide))

theorem SpellsChars.unique {text text' : List Char} (h : SpellsChars text cs rest)
    (h' : SpellsChars text' cs rest') : text = text' ∧ rest = rest' := by
  induction h generalizing text' with
  | close =>
    cases h' with
    | close => exact ⟨rfl, rfl⟩
    | char first => exact first.not_quote.elim
  | char first _ ih =>
    cases h' with
    | close => exact first.not_quote.elim
    | char first' further' =>
      obtain ⟨rfl, rfl⟩ := first.unique first'
      obtain ⟨rfl, rfl⟩ := ih further'
      exact ⟨rfl, rfl⟩

/-! ## A text has one value -/

/-- A value without parts starts with none of the signs that open or close values with parts. -/
theorem SpellsScalar.not_sign {c : Char} {j : Json} (h : SpellsScalar j (c :: cs) rest) :
    c ≠ '[' ∧ c ≠ ']' ∧ c ≠ '\x7b' := by
  cases h with
  | null => decide
  | number starts reads =>
    refine ⟨?_, ?_, ?_⟩ <;> rintro rfl <;> exact reads.not_starts (by decide) starts
  | string => decide

theorem SpellsScalar.unique {j j' : Json} (h : SpellsScalar j cs rest)
    (h' : SpellsScalar j' cs rest') : j = j' ∧ rest = rest' := by
  cases h with
  | null =>
    cases h' with
    | null => exact ⟨rfl, rfl⟩
    | number starts reads => exact absurd starts (reads.not_starts (by decide))
  | number starts reads _ stops =>
    cases h' with
    | null => exact absurd starts (reads.not_starts (by decide))
    | number starts' reads' _ stops' =>
      obtain ⟨rfl, rfl⟩ := run_inj reads.signs stops reads'.signs stops' (starts.symm.trans starts')
      obtain ⟨rfl, rfl⟩ := reads.unique reads'
      exact ⟨rfl, rfl⟩
    | string => exact absurd starts (reads.not_starts (by decide))
  | string chars =>
    cases h' with
    | number starts reads => exact absurd starts (reads.not_starts (by decide))
    | string chars' =>
      obtain ⟨rfl, rfl⟩ := chars.unique chars'
      exact ⟨rfl, rfl⟩

/-- No element starts with the sign behind the last one. -/
theorem Spells.not_closing {element : Element} {y : element.Yield} {more : List Char}
    (h : Spells (.one element) y cs rest) : skip cs ≠ element.closing :: more := by
  intro closes
  cases h with
  | scalar scalar =>
    rw [closes] at scalar
    exact scalar.not_sign.2.1 rfl
  | list opens => cases closes.symm.trans opens
  | object opens => cases closes.symm.trans opens
  | member quote => cases closes.symm.trans quote

theorem Element.closing_ne_comma (element : Element) : element.closing ≠ ',' := by
  cases element <;> decide

theorem Spells.unique {part : Part} {y y' : part.Yield} (h : Spells part y cs rest)
    (h' : Spells part y' cs rest') : y = y' ∧ rest = rest' := by
  induction h generalizing rest' with
  | scalar scalar =>
    cases h' with
    | scalar scalar' => exact scalar.unique scalar'
    | list opens =>
      rw [opens] at scalar
      exact absurd rfl scalar.not_sign.1
    | object opens =>
      rw [opens] at scalar
      exact absurd rfl scalar.not_sign.2.2
  | list opens _ ih =>
    cases h' with
    | scalar scalar =>
      rw [opens] at scalar
      exact absurd rfl scalar.not_sign.1
    | list opens' items =>
      cases opens.symm.trans opens'
      obtain ⟨rfl, rfl⟩ := ih items
      exact ⟨rfl, rfl⟩
    | object opens' => cases opens.symm.trans opens'
  | object opens _ ih =>
    cases h' with
    | scalar scalar =>
      rw [opens] at scalar
      exact absurd rfl scalar.not_sign.2.2
    | list opens' => cases opens.symm.trans opens'
    | object opens' members =>
      cases opens.symm.trans opens'
      obtain ⟨rfl, rfl⟩ := ih members
      exact ⟨rfl, rfl⟩
  | member quote key colon _ ih =>
    cases h' with
    | member quote' key' colon' value' =>
      cases quote.symm.trans quote'
      obtain ⟨rfl, rfl⟩ := key.unique key'
      cases colon.symm.trans colon'
      obtain ⟨rfl, rfl⟩ := ih value'
      exact ⟨rfl, rfl⟩
  | none closes =>
    cases h' with
    | none closes' => exact ⟨rfl, (List.cons.inj (closes.symm.trans closes')).2⟩
    | some first => exact absurd closes first.not_closing
  -- Whether there is an element is told by the next sign: none of them starts with the closing one.
  | some first _ ih ihs =>
    cases h' with
    | none closes => exact absurd closes first.not_closing
    | some first' further' =>
      obtain ⟨rfl, rfl⟩ := ih first'
      obtain ⟨rfl, rfl⟩ := ihs further'
      exact ⟨rfl, rfl⟩
  | @last element _ _ closes =>
    cases h' with
    | last closes' => exact ⟨rfl, (List.cons.inj (closes.symm.trans closes')).2⟩
    | next comma =>
      exact absurd (List.cons.inj (closes.symm.trans comma)).1 element.closing_ne_comma
  | @next element _ _ _ _ _ _ comma _ _ ih ihs =>
    cases h' with
    | last closes =>
      exact absurd (List.cons.inj (closes.symm.trans comma)).1 element.closing_ne_comma
    | next comma' next' further' =>
      cases comma.symm.trans comma'
      obtain ⟨rfl, rfl⟩ := ih next'
      obtain ⟨rfl, rfl⟩ := ihs further'
      exact ⟨rfl, rfl⟩

theorem Denotes.unique {text : String} {j j' : Json} (h : Denotes text j) (h' : Denotes text j') :
    j = j' := by
  obtain ⟨_, spells, -⟩ := h
  obtain ⟨_, spells', -⟩ := h'
  exact (spells.unique spells').1

-- Spelled as no writer here spells it: a blank in front of a comma, a zero with an exponent, and a
-- code unit for a letter.
example : Denotes "[0E1 , \"\\u0041\"]" (.list [.number false 0, .string "A"]) := by
  have scale : Exponent ['E', '1'] 1 :=
    @Exponent.letter 'E' ['1'] (.inr rfl) (List.cons_ne_nil _ _) (List.forall_mem_singleton.mpr rfl)
  have zero : Numeral ['0', 'E', '1'] false ⟨0, 1⟩ := .plain (.parts .zero .none scale)
  have stops : Stops [' ', ',', ' ', '"', '\\', 'u', '0', '0', '4', '1', '"', ']'] := by
    intro c hc
    obtain rfl : ' ' = c := Option.some.inj hc
    decide
  have chars : SpellsChars ['A'] ['\\', 'u', '0', '0', '4', '1', '"', ']'] [']'] :=
    .char (@SpellsChar.unit 0x41 _ _ rfl (by decide)) .close
  have number : SpellsScalar (.number false 0) _ _ := .number rfl zero (by decide) stops
  exact ⟨[], .list rfl (.some (.scalar number) (.next rfl (.scalar (.string chars)) (.last rfl))),
    rfl⟩

end Arith.Json
