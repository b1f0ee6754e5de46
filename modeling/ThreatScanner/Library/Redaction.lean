import ThreatScanner.Library.Masking

/-!
# Replacing a secret by a marker

A word is replaced by a marker whose first and last symbols the word does not have, such as one in
brackets. What is left cannot be read across the ends of a marker, so the word is gone unless the
marker has it inside (`infix_replace_iff`).
-/

namespace ThreatScanner

variable {α : Type*} {word s x y : List α} {a : α}

variable [DecidableEq α] {old new : List α}

end ThreatScanner
