/-
# Names on the command line and names in expressions

The command line checks a name letter by letter after its blanks have been
cut off, and a scan takes the longest run of capital letters.  Both mean the
same names: what is assigned on the command line may be used in an
expression, bare or in braces, and every variable in an expression may be
assigned.

The value of an assignment is read by the reader of numbers, with the blanks
around it cut off.  That nothing else is cut off a number needs that no
number has a blank in it, which is shown by going through the reader of
numbers: words, signs, digits and exponents have none, and nothing else is
accepted.

The second half is about sessions.  After a variable has been set, the text
of its name has a tree of one node, and the value of that node is what was
set.

**Proved here.** `assignments_name_variables`: which texts are assignments;
that the name of one is a single token and stands for its value; and that
every token that is a variable can be assigned every number.
-/
import Mathlib.Data.List.TakeDrop
import Arith.Command.Options
import Arith.Session
import Arith.Proofs.Print.Leaves
import Arith.Proofs.Session.Lineage
import Arith.Proofs.Text.Trimming

namespace Arith

/-! ## Names -/

theorem isVariableName_iff {cs : List Char} :
    isVariableName cs ↔ cs ≠ [] ∧ ∀ c ∈ cs, 'A' ≤ c ∧ c ≤ 'Z' := by
  simp only [isVariableName, isCapitalLetter, Bool.and_eq_true, Bool.not_eq_true', List.all_eq_true,
    List.isEmpty_eq_false_iff, decide_eq_true_eq]

theorem isVariableName_iff_lexeme {cs : List Char} :
    isVariableName cs ↔ Lexeme .variableName cs := by
  rw [isVariableName, Bool.and_eq_true, Bool.not_eq_true', List.all_eq_true,
    List.isEmpty_eq_false_iff]
  constructor
  · rintro ⟨ne, letters⟩
    exact .variableName ne letters
  · intro h
    obtain ⟨c, more, rfl, letters⟩ := h.variableName_inv
    exact ⟨List.cons_ne_nil c more, letters⟩

/-! ## Assignments

A text is split at its first equals sign, and both parts are trimmed. -/

variable {text name : String} {value : Float}

/-- Of a text with an equals sign what stands before the first one is the name, and what stands
behind it is the value. -/
theorem readAssignment_of_equals {before after : List Char}
    (split : text.toList = before ++ '=' :: after)
    (first : '=' ∉ before) : readAssignment text = .ok (name, value) ↔
      isVariableName (trimBlanks before) ∧ String.ofList (trimBlanks before) = name ∧
        readFloat (trimBlanks after) = .ok value := by
  have all : ∀ c ∈ before, (c != '=') = true := by
    intro c mem
    exact bne_iff_ne.mpr fun e => first (e ▸ mem)
  have parts : text.toList.span (· != '=') = (before, '=' :: after) := by
    rw [List.span_eq_takeWhile_dropWhile, split, List.takeWhile_append_of_pos all,
      List.dropWhile_append_of_pos all, List.takeWhile_cons_of_neg (by simp),
      List.dropWhile_cons_of_neg (by simp), List.append_nil]
  simp only [readAssignment, parts, String.toList_ofList]
  by_cases named : isVariableName (trimBlanks before)
  · cases readFloat (trimBlanks after) <;> simp [named]
  · simp [named]

theorem readAssignment_of_not_mem (none : '=' ∉ text.toList) :
    readAssignment text = .error (.missingEquals text) := by
  have all : ∀ c ∈ text.toList, (c != '=') = true := by
    intro c mem
    exact bne_iff_ne.mpr fun e => none (e ▸ mem)
  have parts : text.toList.span (· != '=') = (text.toList, []) := by
    rw [List.span_eq_takeWhile_dropWhile, List.takeWhile_eq_self_iff.mpr all,
      List.dropWhile_eq_nil_iff.mpr all]
  simp only [readAssignment, parts]

/-- What an assignment is. -/
theorem readAssignment_eq_ok_iff : readAssignment text = .ok (name, value) ↔
    ∃ before after, text.toList = before ++ '=' :: after ∧ '=' ∉ before ∧
      isVariableName (trimBlanks before) ∧ String.ofList (trimBlanks before) = name ∧
        readFloat (trimBlanks after) = .ok value := by
  by_cases mem : '=' ∈ text.toList
  · obtain ⟨before, after, split, first⟩ := List.eq_append_cons_of_mem mem
    constructor
    · intro ok
      exact ⟨before, after, split, first, (readAssignment_of_equals split first).mp ok⟩
    · rintro ⟨before', after', split', first', parts⟩
      exact (readAssignment_of_equals split' first').mpr parts
  · rw [readAssignment_of_not_mem mem]
    constructor
    · rintro ⟨⟩
    · rintro ⟨before, after, split, -⟩
      exact absurd (split ▸ List.mem_append_right before List.mem_cons_self) mem

/-! ## No number has a blank in it

One lemma for each part of a number, in the order in which they are read. -/

variable {cs : List Char}

theorem toLower_of_blank {c : Char} (blank : isBlank c) : c.toLower = c := by
  simp only [isBlank, Bool.or_eq_true, Bool.and_eq_true, decide_eq_true_eq, beq_iff_eq] at blank
  unfold Char.toLower
  rw [dif_neg]
  rintro ⟨low, high⟩
  have low : 65 ≤ c.toNat := low
  have high : c.toNat ≤ 90 := high
  omega

theorem not_blank_of_word {word : String} (letters : ∀ x ∈ word.toList, ¬ isBlank x)
    (e : String.ofList (cs.map Char.toLower) = word) : ∀ c ∈ cs, ¬ isBlank c := by
  intro c mem blank
  refine letters c ?_ blank
  rw [← e, String.toList_ofList]
  exact List.mem_map.mpr ⟨c, mem, toLower_of_blank blank⟩

theorem not_blank_of_readWord {bits : Nat} (h : readWord cs = some bits) :
    ∀ c ∈ cs, ¬ isBlank c := by
  unfold readWord at h
  split at h
  next e => exact not_blank_of_word (by simp [isBlank]) e
  next e => exact not_blank_of_word (by simp [isBlank]) e
  next e => exact not_blank_of_word (by simp [isBlank]) e
  next => cases h

theorem mem_takeSign {c : Char} (mem : c ∈ cs) : c = '-' ∨ c = '+' ∨ c ∈ (takeSign cs).2 := by
  unfold takeSign
  split
  · exact (List.mem_cons.mp mem).imp_right .inr
  · exact .inr (List.mem_cons.mp mem)
  · exact .inr (.inr mem)

theorem mem_takeFraction {c : Char} (mem : c ∈ cs) :
    c = '.' ∨ c ∈ (takeFraction cs).1 ∨ c ∈ (takeFraction cs).2 := by
  unfold takeFraction
  split
  next cs =>
    refine (List.mem_cons.mp mem).imp_right fun mem => List.mem_append.mp ?_
    rwa [List.takeWhile_append_dropWhile]
  · exact .inr (.inr mem)

theorem digits_takeFraction (cs : List Char) : ∀ c ∈ (takeFraction cs).1, isDecimalDigit c := by
  unfold takeFraction
  split
  · exact fun c => List.mem_takeWhile_imp
  · exact List.forall_mem_nil _

theorem not_blank_of_readExponent {e : Int} (h : readExponent cs = some e) :
    ∀ c ∈ cs, ¬ isBlank c := by
  cases cs with
  | nil => exact List.forall_mem_nil _
  | cons x cs =>
    simp only [readExponent] at h
    split at h
    next exponent =>
      simp only [Bool.and_eq_true, Bool.or_eq_true, beq_iff_eq, List.all_eq_true] at exponent
      obtain ⟨⟨letter, -⟩, digits⟩ := exponent
      refine List.forall_mem_cons.mpr ⟨?_, fun c mem => ?_⟩
      · rcases letter with rfl | rfl <;> simp [isBlank]
      · rcases mem_takeSign mem with rfl | rfl | digit
        · simp [isBlank]
        · simp [isBlank]
        · exact not_blank_of_digit (digits c digit)
    · cases h

theorem not_blank_of_readDecimal {d : Decimal} (h : readDecimal cs = some d) :
    ∀ c ∈ cs, ¬ isBlank c := by
  simp only [readDecimal] at h
  split at h
  · cases h
  · obtain ⟨e, exponent, -⟩ := Option.map_eq_some_iff.mp h
    intro c mem
    rw [← @List.takeWhile_append_dropWhile _ isDecimalDigit cs, List.mem_append] at mem
    rcases mem with digit | mem
    · exact not_blank_of_digit (List.mem_takeWhile_imp digit)
    · rcases mem_takeFraction mem with rfl | digit | mem
      · simp [isBlank]
      · exact not_blank_of_digit (digits_takeFraction _ c digit)
      · exact not_blank_of_readExponent exponent c mem

theorem not_blank_of_readFloat (h : readFloat cs = .ok value) :
    ∀ c ∈ cs, ¬ isBlank c := by
  simp only [readFloat] at h
  split at h
  · cases h
  · split at h
    next bits reads =>
      intro c mem
      rcases mem_takeSign mem with rfl | rfl | mem
      · simp [isBlank]
      · simp [isBlank]
      · rcases Option.or_eq_some_iff.mp reads with word | ⟨-, decimal⟩
        · exact not_blank_of_readWord word c mem
        · obtain ⟨d, reads, -⟩ := Option.map_eq_some_iff.mp decimal
          exact not_blank_of_readDecimal reads c mem
    · cases h

/-- Every variable can be assigned every number. -/
theorem readAssignment_of_lexeme {number : String} (lexeme : Lexeme .variableName name.toList)
    (reads : readFloat number.toList = .ok value) :
    readAssignment (name ++ "=" ++ number) = .ok (name, value) := by
  have named := isVariableName_iff_lexeme.mpr lexeme
  obtain ⟨-, letters⟩ := isVariableName_iff.mp named
  have solid : ∀ c ∈ name.toList, ¬ isBlank c := fun c mem =>
    not_blank_of_letter (.inr (by simpa [isCapitalLetter] using letters c mem))
  have split : (name ++ "=" ++ number).toList = name.toList ++ '=' :: number.toList := by simp
  have first : '=' ∉ name.toList := fun mem => absurd (letters '=' mem).1 (by decide)
  refine (readAssignment_of_equals split first).mpr ?_
  rw [trimBlanks_of_forall solid, trimBlanks_of_forall (not_blank_of_readFloat reads)]
  exact ⟨named, String.ofList_toList, reads⟩

/-! ## Evaluation -/

theorem Scope.get?_setVariable (c : Scope) (name : String) (value : Float) :
    (c.setVariable name value).bindings.get? name = some value := by
  refine (getElem?_insert c.bindings.values name name value).trans ?_
  rw [if_pos rfl]

/-- What an evaluation of a variable answers. -/
theorem Session.evaluate_var {s : Session} {key source : String} {c : Scope}
    (kept : s.scopes[key]? = some c) (parses : (c.parse source).1 = .ok (.var name value)) :
    (s.step (.evaluate key source)).1 = .value value := by
  have answer := step_evaluate kept source
  rw [parses] at answer
  exact congrArg Prod.fst answer

/-- Behind an assignment to a variable its name has the value, bare and in braces. -/
theorem Session.evaluate_setVariable {s : Session} {key : String} {c : Scope}
    (lexeme : Lexeme .variableName name.toList) (kept : s.scopes[key]? = some c) (value : Float) :
    let after := (s.step (.setVariable key name value)).2.2
    (after.step (.evaluate key name)).1 = .value value ∧
      (after.step (.evaluate key ("\x7b" ++ name ++ "\x7d"))).1 = .value value := by
  intro after
  have kept : after.scopes[key]? = some (c.setVariable name value) := by
    have stepped : after = s.putScope key (c.setVariable name value) := by
      simp only [after, step, look, kept]
      rfl
    rw [stepped, putScope, getElem?_insert, if_pos rfl]
  have bound := c.get?_setVariable name value
  exact ⟨evaluate_var kept (Scope.parse_name lexeme bound),
    evaluate_var kept (Scope.parse_braced lexeme bound)⟩

/-! ## Names on both sides -/

/-- The command line and the scan agree on names.  A text is an assignment exactly if there are
capital letters in front of its first equals sign and a number behind it, with nothing but blanks
around both; the name is then one token, and has the value, bare and in braces, in every evaluator
in which it was set last.  And whatever token is a variable may be assigned whatever is a
number. -/
theorem assignments_name_variables :
    (∀ (text name : String) (value : Float), readAssignment text = .ok (name, value) ↔
      ∃ before after number, text.toList = before ++ '=' :: after ∧ '=' ∉ before ∧
        Trimmed before name.toList ∧ name ≠ "" ∧ (∀ c ∈ name.toList, 'A' ≤ c ∧ c ≤ 'Z') ∧
          Trimmed after number ∧ readFloat number = .ok value) ∧
    (∀ (text name : String) (value : Float), readAssignment text = .ok (name, value) →
      (∃ t, tokenize name = .ok [t] ∧ t.kind = .variableName ∧ t.text = name) ∧
        ∀ (s : Session) (key : String), (∃ c, s.scopes[key]? = some c) →
          let after := (s.step (.setVariable key name value)).2.2
          (after.step (.evaluate key name)).1 = .value value ∧
            (after.step (.evaluate key ("\x7b" ++ name ++ "\x7d"))).1 = .value value) ∧
    ∀ (source : String) (ts : List Token), tokenize source = .ok ts →
      ∀ t ∈ ts, t.kind = .variableName →
        ∀ (number : String) (value : Float), readFloat number.toList = .ok value →
          readAssignment (t.text ++ "=" ++ number) = .ok (t.text, value) := by
  refine ⟨?assigned, ?used, ?assignable⟩
  case assigned =>
    intro text name value
    rw [readAssignment_eq_ok_iff]
    constructor
    · rintro ⟨before, after, split, first, named, rfl, reads⟩
      obtain ⟨ne, letters⟩ := isVariableName_iff.mp named
      have ne : String.ofList (trimBlanks before) ≠ "" := by
        intro empty
        exact ne (String.ofList_eq_empty_iff.mp empty)
      have trimmed := trimmed_trimBlanks before
      rw [← String.toList_ofList (l := trimBlanks before)] at letters trimmed
      exact ⟨before, after, _, split, first, trimmed, ne, letters, trimmed_trimBlanks after, reads⟩
    · rintro ⟨before, after, number, split, first, trimmed, ne, letters, trimmed', reads⟩
      have ne : name.toList ≠ [] := fun empty => ne (String.toList_eq_nil_iff.mp empty)
      rw [← trimBlanks_eq_iff] at trimmed trimmed'
      refine ⟨before, after, split, first, ?_, ?_, trimmed' ▸ reads⟩
      · rw [trimmed]
        exact isVariableName_iff.mpr ⟨ne, letters⟩
      · rw [trimmed, String.ofList_toList]
  case used =>
    intro text name value assigned
    obtain ⟨before, after, -, -, named, rfl, -⟩ := readAssignment_eq_ok_iff.mp assigned
    have lexeme := isVariableName_iff_lexeme.mp named
    rw [← String.toList_ofList (l := trimBlanks before)] at lexeme
    refine ⟨tokenize_name lexeme, ?_⟩
    rintro s key ⟨c, kept⟩
    exact s.evaluate_setVariable lexeme kept value
  case assignable =>
    intro source ts scanned t mem kind number value reads
    have lexeme : Lexeme .variableName t.text.toList := kind ▸ lexed_of_tokenize scanned t mem
    exact readAssignment_of_lexeme lexeme reads

/-- The blanks around `AB` and `-inf` are not part of them. -/
theorem assignments_name_variables_blanks :
    let value := floatOfBits true infinityBits
    let s := (Session.empty.step (.newScope "e")).2.2
    let after := (s.step (.setVariable "e" "AB" value)).2.2
    readAssignment "\u3000AB =\t-inf" = .ok ("AB", value) ∧
      (∃ t, tokenize "AB" = .ok [t] ∧ t.kind = .variableName ∧ t.text = "AB") ∧
      (after.step (.evaluate "e" "AB")).1 = .value value ∧
      (after.step (.evaluate "e" "\x7bAB\x7d")).1 = .value value ∧
      readAssignment "AB=-INF" = .ok ("AB", value) := by
  intro value s after
  obtain ⟨-, used, assignable⟩ := assignments_name_variables
  have assigned : readAssignment "\u3000AB =\t-inf" = .ok ("AB", value) := by cbv
  obtain ⟨⟨t, scanned, kind, text⟩, evaluates⟩ := used _ _ _ assigned
  obtain ⟨bare, braced⟩ := evaluates s "e" ⟨_, rfl⟩
  have reads : readFloat "-INF".toList = .ok value := by cbv
  have again := assignable "AB" [t] scanned t List.mem_cons_self kind "-INF" value reads
  rw [text] at again
  exact ⟨assigned, ⟨t, scanned, kind, text⟩, bare, braced, again⟩

end Arith
