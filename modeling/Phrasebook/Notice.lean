import Phrasebook.LoadError

/-!
# Notices

What the library tells while it works, as data: an operation that has something to tell returns it
beside its result, in order.
-/

namespace Phrasebook

inductive Severity where
  | debug
  | info
  | warn
  deriving DecidableEq, Repr

inductive Detail where
  | text (value : String)
  | number (value : Nat)
  deriving DecidableEq, Repr

inductive Notice where
  | settingIgnored (value : String)
  | messageDropped (context source : String)
  | resourceRead (language : Option String) (contexts messages merged conflicts : Nat)
  | resourceFound (locale path : String)
  | resourceUnavailable (locale : String) (error : LoadError)
  | switchFailed (locale : String) (error : LoadError)
  /-- A catalog took the place of another. -/
  | catalogReplaced (before after : Option String) (messages : Nat)
  deriving DecidableEq, Repr

namespace Notice

def severity : Notice → Severity
  | .settingIgnored _ | .resourceRead .. | .resourceFound .. => .debug
  | .catalogReplaced .. => .info
  | .messageDropped .. | .resourceUnavailable .. | .switchFailed .. => .warn

def message : Notice → String
  | .settingIgnored _ => "ignoring unusable locale setting"
  | .messageDropped .. => "conflicting duplicate message dropped, keeping first translation"
  | .resourceRead .. => "parsed translation resource"
  | .resourceFound .. => "loading translation resource"
  | .resourceUnavailable .. => "translation resource unavailable, using source language"
  | .switchFailed .. => "locale switch failed, using source language"
  | .catalogReplaced .. => "active catalog replaced"

def details : Notice → List (String × Detail)
  | .settingIgnored value => [("value", .text value)]
  | .messageDropped context source => [("context", .text context), ("source", .text source)]
  | .resourceRead language contexts messages merged conflicts =>
    [("language", .text (language.getD "-")), ("contexts", .number contexts),
      ("messages", .number messages), ("merged", .number merged), ("conflicts", .number conflicts)]
  | .resourceFound locale path => [("locale", .text locale), ("path", .text path)]
  | .resourceUnavailable locale error | .switchFailed locale error =>
    [("locale", .text locale), ("error", .text error.message)]
  | .catalogReplaced before after messages =>
    [("from", .text (before.getD "source")), ("to", .text (after.getD "source")),
      ("messages", .number messages)]

end Notice

/-- A result with the notices on the way to it. -/
structure Noted (α : Type) where
  value : α
  notices : List Notice := []

end Phrasebook
