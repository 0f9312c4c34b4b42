-- Glob patterns for channels and keys. A star takes any run without a line break, a
-- question mark takes one character that is no line break, all else stands for itself.
namespace ControlBus.Text

/-- One place of a glob pattern. -/
inductive GlobToken where
  /-- Any run of characters without a line break, also the empty one. -/
  | anyRun
  /-- Any one character but a line break. -/
  | anyOne
  | exactly (c : Char)
deriving Repr, DecidableEq

namespace Glob

/-- What a character of a pattern stands for. -/
def token : Char → GlobToken
  | '*' => .anyRun
  | '?' => .anyOne
  | c => .exactly c

/-- What may follow once a pattern has taken `c`. -/
def after (c : Char) : List GlobToken → List (List GlobToken)
  | [] => []
  | .anyRun :: rest =>
    if c = '\n' then after c rest else (.anyRun :: rest) :: after c rest
  | .anyOne :: rest => if c = '\n' then [] else [rest]
  | .exactly d :: rest => if d = c then [rest] else []

/-- Whether a pattern takes the empty text. -/
def takesNothing (p : List GlobToken) : Bool := p.all (· = .anyRun)

/-- Whether one of the patterns takes the whole text. -/
def anyAccepts (patterns : List (List GlobToken)) : List Char → Bool
  | [] => patterns.any takesNothing
  | c :: rest => anyAccepts (patterns.flatMap (after c)).eraseDups rest

/-- Whether a glob takes the whole of a text. -/
def accepts (glob text : String) : Bool :=
  anyAccepts [glob.toList.map token] text.toList

/-- The part of a glob before its first wildcard: every text it takes starts with it. -/
def literalPrefix (glob : String) : String :=
  String.ofList (glob.toList.takeWhile fun c => c ≠ '*' && c ≠ '?')

end Glob

end ControlBus.Text
