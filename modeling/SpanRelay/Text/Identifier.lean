import SpanRelay.Text.Digits

/-! # Identifiers

`identifier` makes names of one shape, groups of digits with hyphens between them, that are all
different under one seed. -/

namespace SpanRelay.Text

/-- The `n`th identifier of a seed: 36 characters while `n` has no more than twelve digits, with the
marks of a random identifier. -/
def identifier (seed : UInt64) (n : Nat) : List Char :=
  let ds := filled 16 (hexDigits seed.toNat)
  ds.take 8 ++ '-' :: ((ds.drop 8).take 4 ++ '-' :: '4' :: ((ds.drop 12).take 3
    ++ '-' :: '8' :: '0' :: '0' :: (ds.drop 15 ++ '-' :: padded 12 n)))

end SpanRelay.Text
