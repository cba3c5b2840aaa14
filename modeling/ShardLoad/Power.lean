/-!
# Powers

A power of natural numbers is read as the core library's, also where a library with powers
of its own is in scope, so that no definition depends on what else is imported.
-/

@[default_instance high]
instance natPow : Pow Nat Nat := instPowNat
