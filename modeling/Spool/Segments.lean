import Spool.Bytes

/-!
# Segments

A byte string is cut after every delimiter in it. The segments are the commands in a
byte string, or the lines of a text, each with the delimiter that ends it; only the
last one may be without. `flatten_segments` says that cutting loses nothing.
-/

namespace Spool

/-- Cut a byte string after each delimiter. -/
def segments (delimiter : UInt8) : Bytes → List Bytes
  | [] => []
  | b :: rest =>
    if b = delimiter then [b] :: segments delimiter rest
    else match segments delimiter rest with
      | [] => [[b]]
      | first :: more => (b :: first) :: more

/-- The segments together are the byte string. -/
theorem flatten_segments (d : UInt8) (bytes : Bytes) : (segments d bytes).flatten = bytes := by
  fun_induction segments d bytes with
  | case1 => rfl
  | case2 _ ih => simp [ih]
  | case3 b rest _ h ih =>
    rw [h] at ih
    simpa using ih
  | case4 b rest _ first more h ih =>
    rw [h] at ih
    simpa using ih

end Spool
