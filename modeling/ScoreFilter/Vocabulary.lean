import ScoreFilter.Text.Space

namespace ScoreFilter

-- A reserved word, or several that belong together.
structure Keyword where
  name : String
  description : String
deriving DecidableEq

inductive Arity where
  | unary
  | variadic
  | searchString
deriving DecidableEq

structure Builtin where
  name : String
  arity : Arity
  description : String
deriving DecidableEq

structure Comparator where
  symbol : String
  description : String
deriving DecidableEq

structure Vocabulary where
  keywords : List Keyword
  mathFunctions : List Builtin
  sampleFunctions : List Builtin
  comparators : List Comparator
deriving DecidableEq

def Arity.label : Arity → String
  | .unary => "unary"
  | .variadic => "variadic"
  | .searchString => "search string"

def Arity.code : Arity → String
  | .unary => "unary"
  | .variadic => "variadic"
  | .searchString => "search_string"

def Keyword.words (k : Keyword) : List (List Char) :=
  Text.words k.name.toList

def Keyword.wordCount (k : Keyword) : Nat :=
  k.words.length

namespace Vocabulary

def keyword? (v : Vocabulary) (name : String) : Option Keyword :=
  v.keywords.find? (·.name == name)

def mathFunction? (v : Vocabulary) (name : String) : Option Builtin :=
  v.mathFunctions.find? (·.name == name)

def sampleFunction? (v : Vocabulary) (name : String) : Option Builtin :=
  v.sampleFunctions.find? (·.name == name)

def comparator? (v : Vocabulary) (symbol : String) : Option Comparator :=
  v.comparators.find? (·.symbol == symbol)

def insertByWordCount (k : Keyword) : List Keyword → List Keyword
  | [] => [k]
  | first :: rest =>
    if first.wordCount ≤ k.wordCount then k :: first :: rest
    else first :: insertByWordCount k rest

-- The keywords with more words first; among equals the order of the table.
def keywordsByWordCount (v : Vocabulary) : List Keyword :=
  v.keywords.foldr insertByWordCount []

def WellFormed (v : Vocabulary) : Prop :=
  (∀ k ∈ v.keywords, k.words ≠ []) ∧ (∀ f ∈ v.mathFunctions, f.name ≠ "") ∧
    ∀ f ∈ v.sampleFunctions, f.name ≠ ""

instance (v : Vocabulary) : Decidable v.WellFormed :=
  inferInstanceAs (Decidable (_ ∧ _ ∧ _))

def empty : Vocabulary :=
  ⟨[], [], [], []⟩

def standard : Vocabulary where
  keywords := [
    ⟨"and", "Logical AND of two conditions"⟩,
    ⟨"or", "Logical OR of two conditions"⟩,
    ⟨"not", "Logical NOT of a condition"⟩,
    ⟨"in", "Membership test against a list of values"⟩,
    ⟨"not in", "Negated membership test against a list of values"⟩,
    ⟨"mod", "Remainder of integer division"⟩]
  mathFunctions := [
    ⟨"min", .variadic, "Minimum of two or more values"⟩,
    ⟨"max", .variadic, "Maximum of two or more values"⟩,
    ⟨"abs", .unary, "Absolute value"⟩,
    ⟨"round", .unary, "Round to the nearest integer"⟩,
    ⟨"floor", .unary, "Round down to the nearest integer"⟩,
    ⟨"ceil", .unary, "Round up to the nearest integer"⟩,
    ⟨"sqrt", .unary, "Square root"⟩,
    ⟨"log", .unary, "Natural logarithm"⟩,
    ⟨"log2", .unary, "Base-2 logarithm"⟩,
    ⟨"log10", .unary, "Base-10 logarithm"⟩,
    ⟨"exp", .unary, "e raised to the given power"⟩]
  sampleFunctions := [
    ⟨"input_contains", .searchString, "Checks if the sample input contains a regular expression"⟩,
    ⟨"target_contains", .searchString, "Checks if the sample target contains a regular expression"⟩,
    ⟨"output_contains", .searchString, "Checks if the sample output contains a regular expression"⟩,
    ⟨"error_contains", .searchString, "Checks if the sample error contains a regular expression"⟩]
  comparators := [
    ⟨"==", "Equal to"⟩,
    ⟨"!=", "Not equal to"⟩,
    ⟨"<", "Less than"⟩,
    ⟨"<=", "Less than or equal to"⟩,
    ⟨">", "Greater than"⟩,
    ⟨">=", "Greater than or equal to"⟩,
    ⟨"~=", "Loosely equal to (custom score comparison)"⟩]

theorem standard_wellFormed : standard.WellFormed := by decide +kernel

end Vocabulary

end ScoreFilter
