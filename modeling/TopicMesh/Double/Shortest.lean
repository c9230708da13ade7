import TopicMesh.Double

/-!
# The shortest decimal of a double

A double is written with the fewest digits that read back as the same double,
and of several such decimals with the nearest.  Only two decimals of each grid
`10 ^ k` have to be tried, the neighbours of the number: if any decimal of the
grid reads back, so does one of these.  `shortest?` goes from a grid coarser than
the number to finer ones and takes the first that has a hit.  Seventeen digits
always suffice.
-/

namespace TopicMesh.Double

/-- Of the two neighbours of `num / den` on the grid `10 ^ k` the one that reads
back as a given double; of both the nearer, of equally near ones the larger. -/
def onGrid? (x : Double) (num den : Nat) (k : Int) : Option Decimal :=
  let (up, down) := fraction 1 10 k
  let low := num * down / (den * up)
  let rest := num * down % (den * up)
  let candidate (n : Nat) : Option Decimal :=
    if ofDecimal ⟨false, n, k⟩ = x then some ⟨false, n, k⟩ else none
  if 2 * rest < den * up then candidate low <|> candidate (low + 1)
  else candidate (low + 1) <|> candidate low

theorem onGrid?_reads_back {x : Double} {num den : Nat} {k : Int} {d : Decimal}
    (h : onGrid? x num den k = some d) : ofDecimal d = x := by
  simp only [onGrid?] at h
  grind

/-- The shortest decimal of the double with the given significand, not zero, and
exponent. -/
def shortest? (m : Nat) (e : Int) : Option Decimal :=
  let (num, den) := fraction m 2 e
  let top : Int := Decimal.digitCount num - Decimal.digitCount den + 1
  (List.range 20).findSome? fun (i : Nat) => onGrid? (finite false m e) num den (top - i)

theorem shortest?_reads_back {m : Nat} {e : Int} {d : Decimal} (h : shortest? m e = some d) :
    ofDecimal d = finite false m e := by
  obtain ⟨_, _, hit⟩ := List.exists_of_findSome?_eq_some h
  exact onGrid?_reads_back hit

/-- The text of a double: its shortest decimal, without a power of ten. -/
def text : Double → String
  | finite negative 0 _ => (Decimal.mk negative 0 0).positional
  | finite negative m e => ({ (shortest? m e).getD default with negative }).positional
  | infinite negative => if negative then "-inf" else "inf"
  | notANumber => "NaN"

end TopicMesh.Double
