/-! The two numeric modes of a scope. -/
namespace Formula

/-- How the numerals of an expression are read, and hence how it is computed. -/
inductive Mode where
  | float
  | precise
deriving DecidableEq, Repr, Inhabited

end Formula
