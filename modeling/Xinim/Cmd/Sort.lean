import Mathlib.Order.Defs.Unbundled
import Mathlib.Data.Int.ModEq

/-! The line comparison of sort (commands/sort.cpp): the `SortFlag` bits,
field specifications, `ModernFieldExtractor::extract_field`,
`preprocess_field` and the three base comparators, put together by
`ComparisonEngine::compare_lines`. A line is its bytes, as `Char`s below 256.
`std::string::compare` and the comparators are taken by their sign: -1, 0 or 1.
`std::stod` is a parameter, giving the number a text parses to, or `none`
where it throws. -/

namespace Xinim.Cmd

abbrev Line := List Char

/-- `SortFlag`, a bit set in a `std::uint16_t`. -/
abbrev SortFlag := UInt16

namespace SortFlag

def foldCase : SortFlag := 0x0001
def numeric : SortFlag := 0x0002
def ignoreBlanks : SortFlag := 0x0004
def ignoreNonASCII : SortFlag := 0x0008
def reverse : SortFlag := 0x0010
def dictionary : SortFlag := 0x0020
def unique : SortFlag := 0x0040
def checkOrder : SortFlag := 0x0080
def merge : SortFlag := 0x0100

end SortFlag

def hasFlag (flags flag : SortFlag) : Bool := flags &&& flag != 0

structure FieldSpec where
  startField : ℕ
  startOffset : ℕ
  endField : Option ℕ
  endOffset : Option ℕ
  flags : SortFlag

structure SortConfig where
  globalFlags : SortFlag
  fields : List FieldSpec
  fieldSeparator : Char
  inputFiles : List String
  useStdin : Bool

/-- `line | std::views::split(sep)`: no piece for an empty line, and an empty
piece between two separators or after a last one. -/
def splitPieces (sep : Char) (line : Line) : List Line := if line = [] then [] else line.splitOn sep

/-- `split_fields`: with the default separator `'\t'` the line is split at
spaces and empty pieces are dropped; any other separator keeps them. -/
def splitFields (separator : Char) (line : Line) : List Line :=
  if separator = '\t' then (splitPieces ' ' line).filter (· ≠ []) else splitPieces separator line

/-- The loop of `extract_field` over the fields from `start_field` up to
`end_field`, joined by the separator; an empty start field ends the call with
an empty field. -/
def concatFields (separator : Char) (spec : FieldSpec) (endField : ℕ) : ℕ → List Line → Line → Line
  | _, [], buffer => buffer
  | i, field :: rest, buffer =>
    if endField < i then buffer
    else if i = spec.startField ∧ field.length ≤ spec.startOffset then []
    else
      let field := if i = spec.startField then field.drop spec.startOffset else field
      let field := match spec.endOffset with
        | some endOffset => if i = endField ∧ endOffset < field.length then field.take endOffset else field
        | none => field
      let buffer := if buffer = [] then buffer else buffer ++ [separator]
      concatFields separator spec endField (i + 1) rest (buffer ++ field)

def extractField (separator : Char) (line : Line) (spec : FieldSpec) : Line :=
  let fields := splitFields separator line
  if fields.length ≤ spec.startField then [] else
  let startField := fields.getD spec.startField []
  if spec.startOffset < startField.length then
    match spec.endField with
    | none => startField.drop spec.startOffset
    | some endField => concatFields separator spec endField spec.startField (fields.drop spec.startField) []
  else []

def isBlank (c : Char) : Bool := c = ' ' ∨ c = '\t'

/-- `preprocess_field`: leading blanks go only if a non-blank follows them
(`find_first_not_of` gives `npos` on an all-blank field), then case folding,
then the bytes outside 32..126 go. -/
def preprocessField (field : Line) (flags : SortFlag) : Line :=
  let result := if hasFlag flags SortFlag.ignoreBlanks ∧ field.any (fun c => !isBlank c)
    then field.dropWhile isBlank else field
  let result := if hasFlag flags SortFlag.foldCase then result.map Char.toLower else result
  if hasFlag flags SortFlag.ignoreNonASCII then result.filter (fun c => !(c.toNat < 32 || c.toNat > 126))
  else result

def lineCompare : Line → Line → ℤ
  | [], [] => 0
  | [], _ :: _ => -1
  | _ :: _, [] => 1
  | a :: l, b :: r => if a < b then -1 else if b < a then 1 else lineCompare l r

section Compare

variable {β : Type*} [LT β] [DecidableRel (fun a b : β => a < b)] (stod : Line → Option β)

def compareNumeric (lhs rhs : Line) : ℤ :=
  match stod lhs, stod rhs with
  | some l, some r => if l < r then -1 else if r < l then 1 else 0
  | _, _ => lineCompare lhs rhs

def isDictChar (c : Char) : Bool := c.isAlphanum || c == ',' || c == '.'

/-- The `while` loop of `compare_dictionary` once both sides are non-empty:
`lhs` is skipped to its next dictionary character, then `rhs`. -/
def dictionaryLoop : Line → Line → ℤ
  | [], rhs => if rhs.dropWhile (fun c => !isDictChar c) = [] then 0 else -1
  | a :: lhs, rhs =>
    if !isDictChar a then dictionaryLoop lhs rhs
    else match rhs.dropWhile (fun c => !isDictChar c) with
      | [] => 1
      | b :: rhs => if a ≠ b then (if a < b then -1 else 1)
        else if lhs = [] ∨ rhs = [] then 0 else dictionaryLoop lhs rhs

def compareDictionary (lhs rhs : Line) : ℤ := if lhs = [] ∨ rhs = [] then 0 else dictionaryLoop lhs rhs

def compareFieldValues (lhs rhs : Line) (flags : SortFlag) : ℤ :=
  let lhs := preprocessField lhs flags
  let rhs := preprocessField rhs flags
  if hasFlag flags SortFlag.numeric then compareNumeric stod lhs rhs
  else if hasFlag flags SortFlag.dictionary then compareDictionary lhs rhs
  else lineCompare lhs rhs

def compareWithFields (separator : Char) (lhs rhs : Line) : List FieldSpec → ℤ
  | [] => 0
  | spec :: specs =>
    let result := compareFieldValues stod (extractField separator lhs spec) (extractField separator rhs spec) spec.flags
    if result ≠ 0 then (if hasFlag spec.flags SortFlag.reverse then -result else result)
    else compareWithFields separator lhs rhs specs

def compareWholeLines (config : SortConfig) (lhs rhs : Line) : ℤ :=
  let result := compareFieldValues stod lhs rhs config.globalFlags
  if hasFlag config.globalFlags SortFlag.reverse then -result else result

def compareLines (config : SortConfig) (lhs rhs : Line) : ℤ :=
  if config.fields ≠ [] then compareWithFields stod config.fieldSeparator lhs rhs config.fields
  else compareWholeLines stod config lhs rhs

/-- The comparator `create_comparator` hands to the sort, the merge and the
order check. -/
def lineLess (config : SortConfig) (lhs rhs : Line) : Prop := compareLines stod config lhs rhs < 0

end Compare

section Dictionary

variable {β : Type*} [LT β] [DecidableRel (fun a b : β => a < b)] (stod : Line → Option β)

theorem preprocessField_nil (flags : SortFlag) : preprocessField [] flags = [] := by
  unfold preprocessField
  split_ifs <;> rfl

variable {config : SortConfig} (noFields : config.fields = [])
  (plain : hasFlag config.globalFlags SortFlag.numeric = false)
  (dict : hasFlag config.globalFlags SortFlag.dictionary = true)
include noFields plain dict

theorem compareLines_nil_left (line : Line) : compareLines stod config [] line = 0 := by
  simp only [compareLines, noFields, ne_eq, not_true_eq_false, if_false, compareWholeLines,
    compareFieldValues, preprocessField_nil, plain, dict, Bool.false_eq_true, if_true, compareDictionary,
    true_or, neg_zero, ite_self]

theorem compareLines_nil_right (line : Line) : compareLines stod config line [] = 0 := by
  simp only [compareLines, noFields, ne_eq, not_true_eq_false, if_false, compareWholeLines,
    compareFieldValues, preprocessField_nil, plain, dict, Bool.false_eq_true, if_true, compareDictionary,
    or_true, neg_zero, ite_self]

end Dictionary

def dictionaryConfig : SortConfig := ⟨SortFlag.dictionary, [], '\t', [], true⟩

/-- Under `-d` the empty line is equivalent to both `a` and `b`, which are not
equivalent: the comparator handed to `std::ranges::sort` is no strict weak
order. -/
theorem dictionary_order_not_strict_weak {β : Type*} [LT β] [DecidableRel (fun a b : β => a < b)]
    (stod : Line → Option β) : ¬ IsStrictWeakOrder Line (lineLess stod dictionaryConfig) := by
  intro order
  have noFields : dictionaryConfig.fields = [] := rfl
  have plain : hasFlag dictionaryConfig.globalFlags SortFlag.numeric = false := rfl
  have dict : hasFlag dictionaryConfig.globalFlags SortFlag.dictionary = true := rfl
  have first : ¬ lineLess stod dictionaryConfig ['a'] [] ∧ ¬ lineLess stod dictionaryConfig [] ['a'] := by
    simp only [lineLess, compareLines_nil_left stod noFields plain dict,
      compareLines_nil_right stod noFields plain dict, lt_irrefl, not_false_eq_true, and_self]
  have second : ¬ lineLess stod dictionaryConfig [] ['b'] ∧ ¬ lineLess stod dictionaryConfig ['b'] [] := by
    simp only [lineLess, compareLines_nil_left stod noFields plain dict,
      compareLines_nil_right stod noFields plain dict, lt_irrefl, not_false_eq_true, and_self]
  have value : compareLines stod dictionaryConfig ['a'] ['b'] = -1 := rfl
  have ordered : lineLess stod dictionaryConfig ['a'] ['b'] := by
    rw [lineLess, value]
    decide
  exact (order.incomp_trans ['a'] [] ['b'] first second).1 ordered

end Xinim.Cmd
