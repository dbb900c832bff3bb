import PwndaWallet.Lib.Trace
import PwndaWallet.Desk.Commands

/-!
# M1 against the request

What the record of the handshake is bound to. `accept_bound_iff`: the record speaks of the swap that
was asked for exactly when M1 does; nothing in the handshake compares the two.
-/

namespace Desk

open Tasks

/-- The record is for the pair and direction asked for, and the role it gives us later is the one
the keys were made under. -/
def BoundToRequest (pair direction : String) (rec : StoredSwap) : Prop :=
  rec.pair = pair ∧ rec.direction = direction ∧ ∃ role,
    ClientRole.fromDirection direction = .ok role ∧ ClientRole.fromDeskRole rec.deskRole = .ok role

/-- The desk's M1 is for the pair and direction asked for, and takes the other role. -/
def AnswersRequest (pair direction : String) (m1 : AcceptResponse) : Prop :=
  m1.pair = pair ∧ m1.direction = direction ∧
    (direction = "SELL_FOLLOWER" ∧ m1.deskRole = "LEADER" ∨
      direction = "BUY_FOLLOWER" ∧ m1.deskRole = "FOLLOWER")

/-- The terms the record takes over from M1. -/
def SameTerms (m1 : AcceptResponse) (rec : StoredSwap) : Prop :=
  rec.pair = m1.pair ∧ rec.direction = m1.direction ∧ rec.deskRole = m1.deskRole

theorem bound_iff_answers {pair direction : String} {m1 : AcceptResponse} {rec : StoredSwap}
    (h : SameTerms m1 rec) : BoundToRequest pair direction rec ↔ AnswersRequest pair direction m1 := by
  obtain ⟨hp, hd, hr⟩ := h
  unfold BoundToRequest AnswersRequest
  rw [hp, hd, hr]
  refine and_congr_right fun _ => and_congr_right fun _ => ?_
  simp only [fromDirection_eq_ok, fromDeskRole_eq_ok]
  constructor
  · rintro ⟨role, ⟨h₁, rfl⟩ | ⟨h₁, rfl⟩, ⟨h₂, h⟩ | ⟨h₂, h⟩⟩
    · exact .inl ⟨h₁, h₂⟩
    · cases h
    · cases h
    · exact .inr ⟨h₁, h₂⟩
  · rintro (⟨h₁, h₂⟩ | ⟨h₁, h₂⟩)
    · exact ⟨.follower, .inl ⟨h₁, rfl⟩, .inl ⟨h₂, rfl⟩⟩
    · exact ⟨.leader, .inr ⟨h₁, rfl⟩, .inr ⟨h₂, rfl⟩⟩

theorem sameTerms_acceptRecord (role : ClientRole) (m1 : AcceptResponse) (material : SwapKeyMaterial)
    (delta : Option Int) (payout refund : String) (now : Int) :
    SameTerms m1 (acceptRecord role m1 material delta payout refund now) := by
  unfold acceptRecord
  dsimp only
  split <;> split <;> exact ⟨rfl, rfl, rfl⟩

/-! ## One run of the handshake -/

/-- M1 is asked for once, first, and every record saved has its terms. -/
def AcceptMust : Op → List (Ev Op.Ans) → Prop
  | .client (.accept _), h => h = []
  | .store (.save rec), h => ∃ req m1, (⟨.client (.accept req), .ok m1⟩ : Ev Op.Ans) ∈ h ∧
      SameTerms m1 rec
  | _, _ => True

theorem uses_openStore : Uses (fun o => ∀ h, AcceptMust o h) openStore := by
  refine .bind ⟨fun _ => trivial, fun _ => trivial⟩ fun dir => .bind (.orFail _ _) fun dir => .mapErr ?_
  exact ⟨fun _ => trivial, fun _ => .ofExcept _⟩

theorem uses_cfgDelta (role : ClientRole) (m1 : AcceptResponse) :
    Uses (fun o => ∀ h, AcceptMust o h) (cfgDelta role m1) := by
  refine .ite (.bind (.attempt ⟨fun _ => trivial, fun _ => .ofExcept _⟩) fun r => ?_) trivial
  cases r <;> exact trivial

section
variable {h : List (Ev Op.Ans)} {β : Type} (e : Ev Op.Ans)

theorem safe_openStore {k : Unit → DeskM String β} (he : e ∈ h)
    (hk : ∀ h, e ∈ h → Safe (.hist AcceptMust) (k ()) (fun _ _ => True) h) :
    Safe (.hist AcceptMust) (openStore.bind k) (fun _ _ => True) h := by
  refine Safe.bind ((safe_of_uses uses_openStore (fun o h ho => ho h) h).mono ?_)
  rintro (_ | _) _ ⟨mid, rfl, _⟩
  · exact trivial
  · exact hk _ (List.mem_append_left _ he)

theorem safe_cfgDelta {role : ClientRole} {m1 : AcceptResponse} {k : Option Int → DeskM String β}
    (he : e ∈ h) (hk : ∀ d h, e ∈ h → Safe (.hist AcceptMust) (k d) (fun _ _ => True) h) :
    Safe (.hist AcceptMust) ((cfgDelta role m1).bind k) (fun _ _ => True) h := by
  refine Safe.bind ((safe_of_uses (uses_cfgDelta role m1) (fun o h ho => ho h) h).mono ?_)
  rintro (_ | d) _ ⟨mid, rfl, _⟩
  · exact trivial
  · exact hk d _ (List.mem_append_left _ he)

end

theorem safe_acceptAndPersist (quoteId pair direction payout refund : String) :
    Safe (.hist AcceptMust) (acceptAndPersist quoteId pair direction payout refund)
      (fun _ _ => True) [] := by
  unfold acceptAndPersist
  simp only [Prog.bind_eq, Prog.pure_eq]
  refine Safe.ofExcept_bind (fun _ _ => trivial) fun role _ => ?_
  refine safe_try_hist rfl (fun _ _ => trivial) fun r m1 hr => ?_
  obtain rfl : r = .ok m1 := hr
  -- from here on only that M1's answer is in the history matters
  generalize he : (⟨.client (.accept (acceptRequest quoteId pair payout refund)), .ok m1⟩ : Ev Op.Ans) = e
  have hm : e ∈ [] ++ [e] := by simp
  generalize [] ++ [e] = h at hm ⊢
  refine Safe.ensure_bind (fun _ => trivial) fun _ => ?_
  refine Safe.ofExcept_bind (fun _ _ => trivial) fun _ _ => ?_
  refine safe_try_hist trivial (fun _ _ => trivial) fun _ material _ => ?_
  refine safe_ask_hist trivial fun now => ?_
  refine safe_cfgDelta e (by simp [hm]) fun delta h hm => ?_
  have hrec := sameTerms_acceptRecord role m1 material delta payout refund (Rust.wrapI64 now)
  refine safe_openStore e hm fun h hm => ?_
  refine safe_try_hist ⟨_, m1, he ▸ hm, hrec⟩ (fun _ _ => trivial) fun _ _ _ => ?_
  refine safe_try_hist trivial (fun _ _ => trivial) fun _ m2 _ => ?_
  refine Safe.ensure_bind (fun _ => trivial) fun _ => ?_
  refine safe_try_hist trivial (fun _ _ => trivial) fun _ joint _ => ?_
  refine Safe.ensure_bind (fun _ => trivial) fun _ => ?_
  refine safe_openStore e (by simp [hm]) fun h hm => ?_
  exact safe_try_hist ⟨_, m1, he ▸ hm, hrec⟩ (fun _ _ => trivial) fun _ _ _ => safe_ret.2 trivial

section
variable {quoteId pair direction payout refund : String} {tr : List (Ev Op.Ans)}
  {q : DeskM String StoredSwap} (run : (acceptAndPersist quoteId pair direction payout refund).Run tr q)
include run

theorem accept_first {e : Ev Op.Ans} {req : AcceptRequest} (he : e ∈ tr)
    (ho : e.op = .client (.accept req)) : ∃ post, tr = e :: post := by
  obtain ⟨pre, post, rfl⟩ := List.append_of_mem he
  have hm := must_of_mem (safe_acceptAndPersist ..) run rfl
  rw [ho] at hm
  obtain rfl : pre = [] := hm
  exact ⟨post, rfl⟩

/-- A saved record is bound to the request if and only if M1 answers it. -/
theorem accept_bound_iff {req : AcceptRequest} {m1 : AcceptResponse} {rec : StoredSwap}
    {r : Except StoreError Unit} (hm1 : ⟨.client (.accept req), .ok m1⟩ ∈ tr)
    (hsave : ⟨.store (.save rec), r⟩ ∈ tr) :
    BoundToRequest pair direction rec ↔ AnswersRequest pair direction m1 := by
  obtain ⟨pre, post, hsplit⟩ := List.append_of_mem hsave
  obtain ⟨req', m1', hm1', hsame⟩ := must_of_mem (safe_acceptAndPersist ..) run hsplit
  have hm1'' : ⟨.client (.accept req'), .ok m1'⟩ ∈ tr := hsplit ▸ List.mem_append_left _ hm1'
  obtain ⟨_, h⟩ := accept_first run hm1 rfl
  obtain ⟨_, h'⟩ := accept_first run hm1'' rfl
  obtain rfl : m1 = m1' := by
    have := (List.cons.inj (h.symm.trans h')).1
    simp only [Ev.mk.injEq, Op.client.injEq, ClientCall.accept.injEq] at this
    obtain ⟨rfl, h⟩ := this
    simpa using h
  exact bound_iff_answers hsame

end

/-! ## One desk that answers the request, one that does not -/

/-- M1 for a sale of XMR that the desk leads. -/
def deskLeads : AcceptResponse :=
  { (default : AcceptResponse) with
    swapId := "8f40ce4b"
    pair := "XMR/ADA"
    direction := "SELL_FOLLOWER"
    deskRole := "LEADER"
    t1Slot := some 100
    t2Slot := some 1900 }

/-- M1 for the same sale in which the desk says it follows, as we do. -/
def bothFollow : AcceptResponse :=
  { deskLeads with deskRole := "FOLLOWER", adaptorPoint := some "aa", viewKey := some "bb" }

def m1Ans (m1 : AcceptResponse) (_ : Nat) : (o : Op) → o.Ans
  | .client (.accept _) => .ok m1
  | o => o.easyAns

/-- The record the handshake keeps of a sale. -/
def saleRecord (m1 : AcceptResponse) : StoredSwap :=
  acceptRecord .follower m1 default none "payout" "refund" 0

def sale : DeskM String StoredSwap :=
  acceptAndPersist "q" "XMR/ADA" "SELL_FOLLOWER" "payout" "refund"

/-- The sale up to the first save, with `m1` for M1. -/
def saleTrace (m1 : AcceptResponse) : List (Ev Op.Ans) := Prog.fed (m1Ans m1) sale 6

theorem accept_bound_deskLeads : BoundToRequest "XMR/ADA" "SELL_FOLLOWER" (saleRecord deskLeads) := by
  have hm1 : (⟨.client (.accept (acceptRequest "q" "XMR/ADA" "payout" "refund")), .ok deskLeads⟩ :
      Ev Op.Ans) ∈ saleTrace deskLeads := List.mem_of_getElem? (i := 0) rfl
  have hsave : ⟨.store (.save (saleRecord deskLeads)), .ok ()⟩ ∈ saleTrace deskLeads :=
    List.mem_of_getElem? (i := 5) rfl
  exact (accept_bound_iff (Prog.run_feed (m1Ans deskLeads) sale 6) hm1 hsave).2
    ⟨rfl, rfl, .inl ⟨rfl, rfl⟩⟩

theorem not_always_bound : ¬ ∀ (quoteId pair direction payout refund : String)
    (tr : List (Ev Op.Ans)) (q : DeskM String StoredSwap),
    (acceptAndPersist quoteId pair direction payout refund).Run tr q →
    ∀ rec, ⟨.store (.save rec), .ok ()⟩ ∈ tr → BoundToRequest pair direction rec := by
  intro h
  have hsave : ⟨.store (.save (saleRecord bothFollow)), .ok ()⟩ ∈ saleTrace bothFollow :=
    List.mem_of_getElem? (i := 5) rfl
  obtain ⟨_, _, role, hdir, hrole⟩ :=
    h _ _ _ _ _ _ _ (Prog.run_feed (m1Ans bothFollow) sale 6) _ hsave
  rw [show (saleRecord bothFollow).deskRole = "FOLLOWER" from rfl] at hrole
  obtain rfl : role = .leader := by simpa [fromDeskRole_eq_ok] using hrole
  simp [fromDirection_eq_ok] at hdir

end Desk
