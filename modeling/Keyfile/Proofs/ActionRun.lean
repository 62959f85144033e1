import Keyfile.Store

namespace Keyfile

namespace Action

variable {α β : Type}

theorem run_bind (x : Action α) (f : α → Action β) (h : Host) :
    (x >>= f).run h =
      match x.run h with
      | (.ok a, h') => (f a).run h'
      | (.error e, h') => (.error e, h') := by
  change ExceptT.bindCont f (x.run h).1 (x.run h).2 = _
  cases x.run h with
  | mk result h' => cases result <;> rfl

theorem run_pure (a : α) (h : Host) : (pure a : Action α).run h = (.ok a, h) := rfl

theorem run_throw (e : Failure) (h : Host) : (throw e : Action α).run h = (.error e, h) := rfl

theorem run_note (level : Level) (target message : Text) (h : Host) :
    (note level target message).run h =
      (.ok (), { h with log := ⟨level, target, message⟩ :: h.log }) := rfl

theorem run_alter (f : Disk → Disk) (h : Host) :
    (alter f).run h = (.ok (), { h with disk := f h.disk }) := rfl

theorem run_query (f : Disk → Except DiskFault α) (h : Host) :
    (query f).run h =
      match f h.disk with
      | .ok a => (.ok a, h)
      | .error e => (.error (.disk e), h) := by
  rw [query, run_bind]
  change (match f h.disk with | .ok a => pure a | .error e => throw (.disk e) : Action α).run h = _
  cases f h.disk <;> rfl

theorem run_change (f : Disk → Except DiskFault Disk) (h : Host) :
    (change f).run h =
      match f h.disk with
      | .ok d => (.ok (), { h with disk := d })
      | .error e => (.error (.disk e), h) := by
  rw [change, run_bind, run_query]
  cases f h.disk <;> rfl

theorem run_bind_of_ok {x : Action α} {a : α} {h h' : Host} (ran : x.run h = (.ok a, h'))
    (f : α → Action β) : (x >>= f).run h = (f a).run h' := by
  rw [run_bind, ran]

theorem run_query_of_ok {f : Disk → Except DiskFault α} {a : α} {h : Host}
    (found : f h.disk = .ok a) : (query f).run h = (.ok a, h) := by
  rw [run_query, found]

theorem run_change_of_ok {f : Disk → Except DiskFault Disk} {d : Disk} {h : Host}
    (changed : f h.disk = .ok d) : (change f).run h = (.ok (), { h with disk := d }) := by
  rw [run_change, changed]

def Gives (act : Action α) (P : α → Prop) : Prop :=
  ∀ h a h', act.run h = (.ok a, h') → P a

namespace Gives

variable {P : β → Prop}

theorem bind {x : Action α} {f : α → Action β} (next : ∀ a, (f a).Gives P) : (x >>= f).Gives P := by
  intro h b h' ran
  rw [run_bind] at ran
  cases first : x.run h with
  | mk result h₁ =>
    rw [first] at ran
    cases result with
    | ok a => exact next a h₁ b h' ran
    | error e => cases ran

theorem of_pure {b : β} (holds : P b) : (pure b : Action β).Gives P := by
  intro h _ h' ran
  cases ran
  exact holds

end Gives

end Action

namespace StoreAction

variable {α β : Type}

theorem run_bind (x : StoreAction α) (f : α → StoreAction β) (s : Session) :
    (x >>= f).run s =
      match x.run s with
      | (.ok a, s') => (f a).run s'
      | (.error e, s') => (.error e, s') := by
  change ExceptT.bindCont f (x.run s).1 (x.run s).2 = _
  cases x.run s with
  | mk result s' => cases result <;> rfl

theorem run_onHost (act : Action α) (s : Session) :
    (onHost act).run s = ((act.run s.host).1, { s with host := (act.run s.host).2 }) := rfl

theorem run_liftExcept (x : Except Failure α) (s : Session) :
    (liftExcept x : StoreAction α).run s = (x, s) := by
  cases x <;> rfl

theorem run_getThe (s : Session) : (getThe Session : StoreAction Session).run s = (.ok s, s) := rfl

end StoreAction

end Keyfile
