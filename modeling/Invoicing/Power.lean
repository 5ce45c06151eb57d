set_option autoImplicit false

/-! # Powers of numbers

A power of natural numbers is the built-in one. A module that also sees the powers of a monoid reads `2 ^ 256` in the
same way. -/

attribute [instance (20000), default_instance 20000] instPowNat
