import Mathlib.Data.String.Basic
import RuleBacktest.Json.Reader
import RuleBacktest.Json.Writer

/-!
# Documents read back

A document without numbers, whose texts and names are all there, reads back from
its compact form.  The reader goes over what is written of a value as if it had
been handed the value, whatever is open around it: over a text escape by escape,
over a list item by item and over an object field by field.
-/

namespace RuleBacktest
namespace Json

mutual

/-- There are no numbers, and every text and name is a string. -/
def IsPlain : Json → Prop
  | null => True
  | bool _ => True
  | number _ => False
  | text content => content.isSome = true
  | list items => ArePlain items
  | object fields => HavePlainFields fields

def ArePlain : List Json → Prop
  | [] => True
  | item :: items => item.IsPlain ∧ ArePlain items

def HavePlainFields : List (Option String × Json) → Prop
  | [] => True
  | (name, value) :: fields =>
      name.isSome = true ∧ value.IsPlain ∧ HavePlainFields fields

end

namespace Reader

theorem run_cons (s : State) (c : Char) (cs : List Char) :
    run s (c :: cs) = (step s c).bind fun s => run s cs :=
  rfl

/-! ## Texts -/

theorem hexValue?_hexDigit {n : Nat} (h : n < 16) :
    Text.hexValue? (hexDigit n) = some n := by
  have hall : ∀ n < 16, Text.hexValue? (hexDigit n) = some n := by
    decide
  exact hall n h

/-- The reader inside a text that has been read so far. -/
def inText (isName : Bool) (chars : List Char) (stack : List Frame) : State :=
  ⟨.text isName ⟨chars, true, none, .plain⟩, stack⟩

theorem run_shortEscape {c d : Char}
    (hc : TextState.escape? d = some c)
    (hd : d ≠ 'u')
    (isName : Bool) (chars : List Char) (stack : List Frame) (cs : List Char) :
    run (inText isName chars stack) ('\\' :: d :: cs) =
      run (inText isName (c :: chars) stack) cs := by
  simp [run_cons, step, inText, TextState.step, TextState.push, hc, hd]

theorem run_hexEscape {c : Char}
    (hc : c.toNat < 32)
    (isName : Bool) (chars : List Char) (stack : List Frame) (cs : List Char) :
    run (inText isName chars stack)
        ('\\' :: 'u' :: '0' :: '0' :: hexDigit (c.toNat / 16) ::
          hexDigit (c.toNat % 16) :: cs) =
      run (inText isName (c :: chars) stack) cs := by
  have hzero : Text.hexValue? '0' = some 0 := rfl
  have hhigh := hexValue?_hexDigit (show c.toNat / 16 < 16 by omega)
  have hlow := hexValue?_hexDigit (show c.toNat % 16 < 16 by omega)
  have hunit : 16 * (c.toNat / 16) + c.toNat % 16 = c.toNat := by
    omega
  have hnotHigh : TextState.isHigh c.toNat = false := by
    simp [TextState.isHigh]
    omega
  have hnotLow : TextState.isLow c.toNat = false := by
    simp [TextState.isLow]
    omega
  simp [run_cons, step, inText, TextState.step, TextState.pushUnit,
    TextState.push, hzero, hhigh, hlow, hunit, hnotHigh, hnotLow]

theorem run_unescaped {c : Char}
    (hquote : c ≠ '"')
    (hbackslash : c ≠ '\\')
    (hc : ¬ c.toNat < 32)
    (isName : Bool) (chars : List Char) (stack : List Frame) (cs : List Char) :
    run (inText isName chars stack) (c :: cs) =
      run (inText isName (c :: chars) stack) cs := by
  simp [run_cons, step, inText, TextState.step, TextState.push, hquote,
    hbackslash, hc]

theorem run_escapeChar (isName : Bool) (chars : List Char) (stack : List Frame)
    (c : Char) (cs : List Char) :
    run (inText isName chars stack) (escapeChar c ++ cs) =
      run (inText isName (c :: chars) stack) cs := by
  unfold escapeChar
  split_ifs with hquote hbackslash hnewline hreturn htab hbackspace
    hfeed hcontrol
  · subst hquote
    exact run_shortEscape rfl (by decide) isName chars stack cs
  · subst hbackslash
    exact run_shortEscape rfl (by decide) isName chars stack cs
  · subst hnewline
    exact run_shortEscape rfl (by decide) isName chars stack cs
  · subst hreturn
    exact run_shortEscape rfl (by decide) isName chars stack cs
  · subst htab
    exact run_shortEscape rfl (by decide) isName chars stack cs
  · have hc : c = Char.ofNat 8 := by
      rw [← hbackspace, Char.ofNat_toNat]
    subst hc
    exact run_shortEscape rfl (by decide) isName chars stack cs
  · have hc : c = Char.ofNat 12 := by
      rw [← hfeed, Char.ofNat_toNat]
    subst hc
    exact run_shortEscape rfl (by decide) isName chars stack cs
  · exact run_hexEscape hcontrol isName chars stack cs
  · exact run_unescaped hquote hbackslash hcontrol isName chars stack cs

theorem run_escaped (isName : Bool) (chars : List Char) (stack : List Frame)
    (text : List Char) (cs : List Char) :
    run (inText isName chars stack) (text.flatMap escapeChar ++ cs) =
      run (inText isName (text.reverse ++ chars) stack) cs := by
  induction text generalizing chars with
  | nil => rfl
  | cons c text ih =>
      rw [List.flatMap_cons, List.append_assoc, run_escapeChar, ih,
        List.reverse_cons, List.append_assoc, List.singleton_append]

/-- Behind its opening quotation mark a text is read to the end. -/
theorem run_quoted (isName : Bool) (s : String) (stack : List Frame)
    (cs : List Char) :
    run ⟨.text isName .start, stack⟩
        (s.toList.flatMap escapeChar ++ '"' :: cs) =
      (endText isName (some s) stack).bind fun state => run state cs := by
  have hstart : (⟨.text isName .start, stack⟩ : State) =
      inText isName [] stack := rfl
  have hcontent :
      (TextState.mk s.toList.reverse true none .plain).content = some s := by
    simp [TextState.content]
  rw [hstart, run_escaped, List.append_nil, run_cons]
  simp [inText, step, hcontent]

/-! ## Values -/

theorem run_opening_quote (closable : Bool) (stack : List Frame)
    (cs : List Char) :
    run ⟨.value closable, stack⟩ ('"' :: cs) =
      run ⟨.text false .start, stack⟩ cs := by
  simp [run_cons, step, between, isSpace, startValue]

/-- A field behind the bracket or the comma before it, up to its value. -/
theorem run_name (closable : Bool) (s : String)
    (fields : List (Option String × Json)) (stack : List Frame)
    (cs : List Char) :
    run ⟨.name closable, .object fields :: stack⟩
        (quoted (some s) ++ ':' :: cs) =
      run ⟨.value false, .member fields (some s) :: stack⟩ cs := by
  have hquote : step ⟨.name closable, .object fields :: stack⟩ '"' =
      some ⟨.text true .start, .object fields :: stack⟩ := by
    simp [step, between, isSpace, startName]
  have hcolon : step ⟨.colon, .member fields (some s) :: stack⟩ ':' =
      some ⟨.value false, .member fields (some s) :: stack⟩ := by
    simp [step, between, isSpace]
  simp only [quoted, List.cons_append, List.append_assoc, List.nil_append]
  rw [run_cons, hquote, Option.bind_some, run_quoted, endText, if_pos rfl,
    Option.bind_some, run_cons, hcolon, Option.bind_some]

mutual

theorem run_compactChars :
    ∀ (j : Json), j.IsPlain →
      ∀ (closable : Bool) (stack : List Frame) (cs : List Char),
        run ⟨.value closable, stack⟩ (j.compactChars ++ cs) =
          (complete j stack).bind fun state => run state cs
  | .null, _, closable, stack, cs => by
      simp [compactChars, wordNull, run_cons, step, between, isSpace,
        startValue]
  | .bool true, _, closable, stack, cs => by
      simp [compactChars, wordTrue, run_cons, step, between, isSpace,
        startValue]
  | .bool false, _, closable, stack, cs => by
      simp [compactChars, wordFalse, run_cons, step, between, isSpace,
        startValue]
  | .number spelling, hplain, _, _, _ => by
      simp [IsPlain] at hplain
  | .text none, hplain, _, _, _ => by
      simp [IsPlain] at hplain
  | .text (some s), _, closable, stack, cs => by
      simp only [compactChars, quoted, List.cons_append, List.append_assoc,
        List.nil_append]
      rw [run_opening_quote, run_quoted]
      rfl
  | .list [], _, closable, stack, cs => by
      simp [compactChars, run_cons, step, between, isSpace, startValue]
  | .list (item :: items), hplain, closable, stack, cs => by
      simp only [IsPlain, ArePlain] at hplain
      have hopen : step ⟨.value closable, stack⟩ '[' =
          some ⟨.value true, .list [] :: stack⟩ := by
        simp [step, between, isSpace, startValue]
      simp only [compactChars, List.cons_append, List.append_assoc]
      rw [run_cons, hopen, Option.bind_some, run_compactChars item hplain.1,
        complete, Option.bind_some, run_compactItems items hplain.2,
        List.reverse_singleton, List.singleton_append]
  | .object [], _, closable, stack, cs => by
      simp [compactChars, run_cons, step, between, isSpace, startValue,
        startName]
  | .object ((none, value) :: fields), hplain, _, _, _ => by
      simp [IsPlain, HavePlainFields] at hplain
  | .object ((some name, value) :: fields), hplain, closable, stack, cs => by
      simp only [IsPlain, HavePlainFields] at hplain
      have hopen : step ⟨.value closable, stack⟩ '{' =
          some ⟨.name true, .object [] :: stack⟩ := by
        simp [step, between, isSpace, startValue]
      simp only [compactChars, List.cons_append, List.append_assoc]
      rw [run_cons, hopen, Option.bind_some, run_name,
        run_compactChars value hplain.2.1, complete, Option.bind_some,
        run_compactFields fields hplain.2.2, List.reverse_singleton,
        List.singleton_append]

theorem run_compactItems :
    ∀ (items : List Json), ArePlain items →
      ∀ (read : List Json) (stack : List Frame) (cs : List Char),
        run ⟨.after, .list read :: stack⟩ (compactItems items ++ cs) =
          (complete (.list (read.reverse ++ items)) stack).bind fun state =>
            run state cs
  | [], _, read, stack, cs => by
      simp [compactItems, run_cons, step, between, isSpace, afterValue]
  | item :: items, hplain, read, stack, cs => by
      simp only [ArePlain] at hplain
      have hcomma : step ⟨.after, .list read :: stack⟩ ',' =
          some ⟨.value false, .list read :: stack⟩ := by
        simp [step, between, isSpace, afterValue]
      simp only [compactItems, List.cons_append, List.append_assoc]
      rw [run_cons, hcomma, Option.bind_some, run_compactChars item hplain.1,
        complete, Option.bind_some, run_compactItems items hplain.2,
        List.reverse_cons, List.append_assoc, List.singleton_append]

theorem run_compactFields :
    ∀ (fields : List (Option String × Json)), HavePlainFields fields →
      ∀ (read : List (Option String × Json)) (stack : List Frame)
        (cs : List Char),
        run ⟨.after, .object read :: stack⟩ (compactFields fields ++ cs) =
          (complete (.object (read.reverse ++ fields)) stack).bind fun state =>
            run state cs
  | [], _, read, stack, cs => by
      simp [compactFields, run_cons, step, between, isSpace, afterValue]
  | (none, value) :: fields, hplain, _, _, _ => by
      simp [HavePlainFields] at hplain
  | (some name, value) :: fields, hplain, read, stack, cs => by
      simp only [HavePlainFields] at hplain
      have hcomma : step ⟨.after, .object read :: stack⟩ ',' =
          some ⟨.name false, .object read :: stack⟩ := by
        simp [step, between, isSpace, afterValue]
      simp only [compactFields, List.cons_append, List.append_assoc]
      rw [run_cons, hcomma, Option.bind_some, run_name,
        run_compactChars value hplain.2.1, complete, Option.bind_some,
        run_compactFields fields hplain.2.2, List.reverse_cons,
        List.append_assoc, List.singleton_append]

end

end Reader

theorem read?_compact {j : Json} (hplain : j.IsPlain) :
    read? j.compact = some j := by
  have hrun := Reader.run_compactChars j hplain false [] []
  rw [List.append_nil] at hrun
  rw [read?, compact, String.toList_ofList, Reader.initial, hrun]
  rfl

end Json
end RuleBacktest
