import PwndaWallet.Lib.Ip
import PwndaWallet.Lib.Text

/-!
# The host of a URI

The components of a URI reference as RFC 3986 splits it: a scheme ends at the first colon, before any
slash, question mark or hash sign; the authority follows two slashes and ends at the first of these
three; the host follows the user information.
-/

namespace Uri

/-- No separator of components. -/
def isPlain (c : Char) : Bool := c ≠ '/' && c ≠ '?' && c ≠ '#'

def isSchemeChar (c : Char) : Bool := isPlain c && c ≠ ':'

/-- What follows the scheme and its colon, or everything if there is no scheme. -/
def afterScheme (cs : List Char) : List Char :=
  match cs.takeWhile isSchemeChar, cs.dropWhile isSchemeChar with
  | _ :: _, ':' :: rest => rest
  | _, _ => cs

def authority (cs : List Char) : Option (List Char) :=
  match afterScheme cs with
  | '/' :: '/' :: rest => some (rest.takeWhile isPlain)
  | _ => none

/-- What follows the last `@`, or everything. -/
def afterLastAt (cs : List Char) : List Char := (cs.reverse.takeWhile (· ≠ '@')).reverse

inductive Host where
  /-- what stands in brackets -/
  | literal (text : List Char)
  | name (text : List Char)
deriving DecidableEq

/-- The host of an authority. The brackets of a literal are closed, and a port follows them or nothing. -/
def hostOf (authority : List Char) : Option Host :=
  match afterLastAt authority with
  | '[' :: rest =>
    match rest.dropWhile (· ≠ ']') with
    | [_] => some (.literal (rest.takeWhile (· ≠ ']')))
    | _ :: ':' :: _ => some (.literal (rest.takeWhile (· ≠ ']')))
    | _ => none
  | info => some (.name (info.takeWhile (· ≠ ':')))

def host (cs : List Char) : Option Host := (authority cs).bind hostOf

/-- The host is `localhost` or a loopback address, which in brackets is of the sixth version. -/
def Host.isLoopback : Host → Bool
  | .literal text => (Net.parseIp text).any fun ip => ip.isV6 && ip.isLoopback
  | .name text =>
    Rust.eqIgnoreAsciiCase (String.ofList text) "localhost" || (Net.parseIp text).any Net.IpAddr.isLoopback

/-- The URI has a host, and it is this machine. -/
def IsLoopback (cs : List Char) : Prop := ∃ h, host cs = some h ∧ h.isLoopback = true

instance (cs : List Char) : Decidable (IsLoopback cs) :=
  decidable_of_iff ((host cs).any Host.isLoopback = true) (by
    unfold IsLoopback
    cases host cs <;> simp)

/-! ## The components of a URI that has them -/

theorem takeWhile_append_of_stop {α : Type} {p : α → Bool} {l l' : List α} {c : α} (hl : ∀ a ∈ l, p a = true)
    (hc : p c = false) : (l ++ c :: l').takeWhile p = l := by
  rw [List.takeWhile_append_of_pos hl, List.takeWhile_cons, hc]
  simp

theorem dropWhile_append_of_stop {α : Type} {p : α → Bool} {l l' : List α} {c : α} (hl : ∀ a ∈ l, p a = true)
    (hc : p c = false) : (l ++ c :: l').dropWhile p = c :: l' := by
  rw [List.dropWhile_append_of_pos hl, List.dropWhile_cons, hc]
  simp

theorem afterScheme_append {scheme rest : List Char} (hne : scheme ≠ [])
    (hs : ∀ c ∈ scheme, isSchemeChar c = true) : afterScheme (scheme ++ ':' :: rest) = rest := by
  have hcolon : isSchemeChar ':' = false := by decide
  unfold afterScheme
  rw [takeWhile_append_of_stop hs hcolon, dropWhile_append_of_stop hs hcolon]
  cases scheme with
  | nil => exact absurd rfl hne
  | cons c scheme => rfl

theorem authority_append {scheme rest : List Char} (hne : scheme ≠ [])
    (hs : ∀ c ∈ scheme, isSchemeChar c = true) :
    authority (scheme ++ ':' :: '/' :: '/' :: rest) = some (rest.takeWhile isPlain) := by
  unfold authority
  rw [afterScheme_append hne hs]
  rfl

/-- A text without `@` after the one that counts. -/
theorem afterLastAt_append {l l' : List Char} (hl : '@' ∉ l') : afterLastAt (l ++ l') = afterLastAt l ++ l' := by
  have hall : ∀ c ∈ l'.reverse, decide (c ≠ '@') = true := by
    intro c hc
    rw [decide_eq_true_iff]
    rintro rfl
    exact hl (List.mem_reverse.1 hc)
  unfold afterLastAt
  rw [List.reverse_append, List.takeWhile_append_of_pos hall, List.reverse_append, List.reverse_reverse]

theorem mem_of_mem_afterLastAt {l : List Char} {c : Char} (hc : c ∈ afterLastAt l) : c ∈ l := by
  have hmem := (List.takeWhile_sublist _).subset (List.mem_reverse.1 hc)
  exact List.mem_reverse.1 hmem

end Uri
