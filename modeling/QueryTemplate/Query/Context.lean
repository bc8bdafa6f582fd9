import QueryTemplate.Escape.Escaper
import QueryTemplate.Settings.Basic

/-!
# Contexts

What the two passes of one build share: the escaper, the settings, and the skip marker, which is
the text that carries a skip from the first pass to the second. A build makes its skip marker from
a nonce, between two NUL characters.
-/

namespace QueryTemplate

/-- A number that no caller can foresee, as 32 digits in base 16. -/
abbrev Nonce := Vector (Fin 16) 32

def Nonce.skipMarker (nonce : Nonce) : Text :=
  '\x00' :: "skip:".toList ++ nonce.toList.map (fun d => Nat.digitChar d.val) ++ ['\x00']

structure Context where
  escaper : Escaper
  settings : Settings
  /-- The text that stands for a skipped argument between the passes. -/
  skipMarker : Text

end QueryTemplate
