import MqSentinel.PyText
import MqSentinel.RegexSubstitution

/-!
# The output sanitizer

A string from IBM MQ is normalised, stripped of control sequences, rid of the
injection markers one pattern after another, rid of the URLs that the guard does not
let through, and cut.  `sanitizeMqOutput` is that pipeline, and `sanitizeValue` applies
it to every string inside a value.

`unicodedata.normalize("NFKC", ·)` is the parameter `nfkc`, any function on strings.
-/

namespace MqSentinel
namespace Sanitizer

open Regex CodePoint

/-- A value as a tool returns it.  The items of a `dict` are in insertion order. -/
inductive PyValue where
  | none
  | bool (b : Bool)
  | int (n : Int)
  | float (bits : UInt64)
  | str (s : PyStr)
  | list (xs : List PyValue)
  | tuple (xs : List PyValue)
  | dict (items : List (PyStr × PyValue))

/-- A character between two code points. -/
def between (lo hi : Nat) (c : CodePoint) : Bool :=
  decide (lo ≤ c.val ∧ c.val ≤ hi)

/--
`_ANSI_ESCAPE`: an escape character and one of `[@-Z\\-_]`, or `[` with parameter
characters `0` to `?`, intermediate characters from the blank to `/`, and a final one
from `@` to `~`.
-/
def ansiEscape : Rx CodePoint :=
  Rx.seq (Rx.cls (between 0x1B 0x1B))
    (Rx.alt (Rx.cls fun c => between 0x40 0x5A c || between 0x5C 0x5F c)
      (Rx.seq (Rx.cls (one (ch '[')))
        (Rx.seq (Rx.star (Rx.cls (between 0x30 0x3F)))
          (Rx.seq (Rx.star (Rx.cls (between 0x20 0x2F))) (Rx.cls (between 0x40 0x7E))))))

/-- A character of `[\x00-\x08\x0B\x0C\x0E-\x1F\x7F]`. -/
def isControl (c : CodePoint) : Bool :=
  between 0x00 0x08 c || between 0x0B 0x0C c || between 0x0E 0x1F c || between 0x7F 0x7F c

/-- A character of `[\u200B-\u200F\u202A-\u202E\u2060-\u206F\uFEFF]`. -/
def isZeroWidth (c : CodePoint) : Bool :=
  between 0x200B 0x200F c || between 0x202A 0x202E c || between 0x2060 0x206F c ||
    between 0xFEFF 0xFEFF c

/-- A character of `[\U000E0000-\U000E007F]`. -/
def isTagChar (c : CodePoint) : Bool :=
  between 0xE0000 0xE007F c

/-- `_CONTROL_CHARS` -/
def controlChars : Rx CodePoint :=
  Rx.cls isControl

/-- `_ZERO_WIDTH` -/
def zeroWidth : Rx CodePoint :=
  Rx.cls isZeroWidth

/-- `_TAG_CHARS` -/
def tagChars : Rx CodePoint :=
  Rx.cls isTagChar

/-- `https?://` -/
def scheme : Rx CodePoint :=
  Rx.seq (ciRx "http") (Rx.seq (Rx.opt (Rx.cls (ci (ch 's')))) (ciRx "://"))

/-- `[^\s<>\"')]` -/
def isUrlChar (c : CodePoint) : Bool :=
  !(c.isSpace || c == ch '<' || c == ch '>' || c == dquote || c == quote || c == ch ')')

/-- `_URL`: `https?://[^\s<>\"')]+` -/
def url : Rx CodePoint :=
  Rx.seq scheme (Rx.plus (Rx.cls isUrlChar))

section Markers

variable (U : UnicodeData)

/-- `ignore (?:all )?previous instructions?` -/
def ignorePrevious : Rx CodePoint :=
  Rx.seq (ciRx "ignore ") (Rx.seq (Rx.opt (ciRx "all "))
    (Rx.seq (ciRx "previous instruction") (Rx.opt (ciRx "s"))))

/-- `disregard (?:the )?(?:prior|above) (?:prompt|instructions?)` -/
def disregardPrior : Rx CodePoint :=
  Rx.seq (ciRx "disregard ") (Rx.seq (Rx.opt (ciRx "the "))
    (Rx.seq (Rx.alt (ciRx "prior") (ciRx "above")) (Rx.seq (ciRx " ")
      (Rx.alt (ciRx "prompt") (Rx.seq (ciRx "instruction") (Rx.opt (ciRx "s")))))))

/-- `you are now` -/
def youAreNow : Rx CodePoint :=
  ciRx "you are now"

/-- `new instructions?:` -/
def newInstructions : Rx CodePoint :=
  Rx.seq (ciRx "new instruction") (Rx.seq (Rx.opt (ciRx "s")) (ciRx ":"))

/-- `\b…\b` -/
def word (core : Rx CodePoint) : Rx CodePoint :=
  Rx.seq (Rx.edge U.isWord) (Rx.seq core (Rx.edge U.isWord))

/-- `</?name>` -/
def tag (name : String) : Rx CodePoint :=
  Rx.seq (ciRx "<") (Rx.seq (Rx.opt (ciRx "/")) (ciRx (name ++ ">")))

/-- `\[\[SYSTEM\]\]` -/
def systemBrackets : Rx CodePoint :=
  ciRx "[[SYSTEM]]"

/-- `###\s*system` -/
def systemHeading : Rx CodePoint :=
  Rx.seq (ciRx "###") (Rx.seq (Rx.star (Rx.cls isSpace)) (ciRx "system"))

/-- `_INJECTION_MARKERS` -/
def injectionMarkers : List (Rx CodePoint) :=
  [word U ignorePrevious, word U disregardPrior, word U youAreNow,
    Rx.seq (Rx.edge U.isWord) (Rx.seq newInstructions (Rx.star (Rx.cls isSpace))),
    tag "system", tag "assistant", tag "user", systemBrackets, systemHeading]

/-- `_REDACTED` -/
def redacted : PyStr :=
  lit "[REDACTED:injection_pattern]"

/-- `scrub_injection_markers` -/
def scrubInjectionMarkers (text : PyStr) : PyStr :=
  (injectionMarkers U).foldl (fun text pattern => sub pattern (fun _ => redacted) text) text

/-- `any(f"://{host}" in url.lower() for host in allowed_hosts)` -/
def hostAllowed (allowedHosts : List PyStr) (u : PyStr) : Bool :=
  allowedHosts.any fun host => decide (lit "://" ++ host <:+: U.lower u)

def redactedUrl : PyStr :=
  lit "[REDACTED:url]"

/-- `_drop_disallowed_urls` -/
def dropDisallowedUrls (allowedHosts : List PyStr) (text : PyStr) : PyStr :=
  sub url (fun u => if hostAllowed U allowedHosts u then u else redactedUrl) text

/-- `"…[truncated]"` -/
def truncationMark : PyStr :=
  ellipsis :: lit "[truncated]"

/-- `s[:max_len] + "…[truncated]"` when the text is too long. -/
def truncate (maxLen : Nat) (s : PyStr) : PyStr :=
  if s.length > maxLen then s.take maxLen ++ truncationMark else s

variable (nfkc : PyStr → PyStr)

/-- The text that is searched for markers: normalised, and control sequences removed. -/
def clean (value : PyStr) : PyStr :=
  sub tagChars (fun _ => []) (sub zeroWidth (fun _ => [])
    (sub controlChars (fun _ => []) (sub ansiEscape (fun _ => []) (nfkc value))))

/-- `sanitize_mq_output` on a string. -/
def sanitizeMqOutput (allowedDocHosts : List PyStr) (maxLen : Nat) (value : PyStr) : PyStr :=
  truncate maxLen (dropDisallowedUrls U allowedDocHosts (scrubInjectionMarkers U (clean nfkc value)))

/-- The default `allowed_doc_hosts`. -/
def defaultDocHosts : List PyStr :=
  [lit "www.ibm.com"]

/-- `_MAX_STRING_LEN` -/
def maxStringLen : Nat :=
  8192

mutual

/-- `sanitize_mq_output`: the strings inside a value are sanitized, the keys are kept. -/
def sanitizeValue (allowedDocHosts : List PyStr) (maxLen : Nat) : PyValue → PyValue
  | .str s => .str (sanitizeMqOutput U nfkc allowedDocHosts maxLen s)
  | .dict items => .dict (sanitizeItems allowedDocHosts maxLen items)
  | .list xs => .list (sanitizeAll allowedDocHosts maxLen xs)
  | .tuple xs => .tuple (sanitizeAll allowedDocHosts maxLen xs)
  | value => value

def sanitizeAll (allowedDocHosts : List PyStr) (maxLen : Nat) : List PyValue → List PyValue
  | [] => []
  | x :: xs => sanitizeValue allowedDocHosts maxLen x :: sanitizeAll allowedDocHosts maxLen xs

def sanitizeItems (allowedDocHosts : List PyStr) (maxLen : Nat) :
    List (PyStr × PyValue) → List (PyStr × PyValue)
  | [] => []
  | (k, v) :: items =>
      (k, sanitizeValue allowedDocHosts maxLen v) :: sanitizeItems allowedDocHosts maxLen items

end

end Markers

end Sanitizer
end MqSentinel
