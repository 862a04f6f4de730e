/-!
# Rounding of quotients

A quotient of natural numbers is rounded to a whole number in one of two ways, which differ only
where it lies halfway between two of them.
-/
namespace ColumnIndex

-- Powers of whole numbers are those of the core library, also beside another theory of powers.
attribute [scoped instance (high)] instPowNat
attribute [default_instance (high + 1)] instPowNat

/-- The whole number nearest to `num / den`; of two the even one. -/
def roundHalfEven (num den : Nat) : Nat :=
  let quotient := num / den
  let rest := num % den
  if 2 * rest < den then quotient
  else if den < 2 * rest then quotient + 1
  else quotient + quotient % 2

/-- The whole number nearest to `num / den`; of two the greater one. -/
def roundHalfUp (num den : Nat) : Nat := (2 * num + den) / (2 * den)

/-- The greatest `k` such that `2 ^ k` is at most `num / den`, for a positive quotient. -/
def floorLog2 (num den : Nat) : Int :=
  let guess : Int := num.log2 - den.log2
  if num * 2 ^ (-guess).toNat < den * 2 ^ guess.toNat then guess - 1 else guess

/-- A rational number without its fraction, on the side of zero. -/
def truncate (q : Rat) : Int := q.num.tdiv q.den

end ColumnIndex
