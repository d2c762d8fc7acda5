import StatementPress.Json.Typed

/-!
# Ceilings on payloads

A payload comes from outside, so reading one is bounded: the bytes of its text, the nesting of its
elements, and the number of its nodes.
-/

namespace StatementPress

/-- The ceilings on a payload. -/
structure Limits where
  maxBytes : UInt64 := 8388608
  maxDepth : UInt64 := 128
  maxNodes : UInt32 := 1000000
  deriving DecidableEq

namespace Limits

/-- The ceilings as a value. -/
def toJson (l : Limits) : Json :=
  .object [("maxBytes", .ofNat l.maxBytes.toNat), ("maxDepth", .ofNat l.maxDepth.toNat),
    ("maxNodes", .ofNat l.maxNodes.toNat)]

/-- Reads ceilings; what is absent has its default. -/
def reader : Json.Typed Limits :=
  .record "ParseLimits" {} [
    .optional "maxBytes" (.natural UInt64.size "usize") fun n l => { l with maxBytes := n.toUInt64 },
    .optional "maxDepth" (.natural UInt64.size "usize") fun n l => { l with maxDepth := n.toUInt64 },
    .optional "maxNodes" (.natural UInt32.size "u32") fun n l => { l with maxNodes := n.toUInt32 }]

end Limits

end StatementPress
