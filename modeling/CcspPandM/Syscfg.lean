import CcspPandM.FaultyStore
import CcspPandM.CString

/-!
The syscfg calls of the webconfig code and the results of its requests. A read
copies a stored value into a buffer, cut to its size, and empties the buffer
when it fails.
-/
namespace CcspPandM.Syscfg

open CString KeyStore FaultyStore

abbrev SyscfgState := Device CStr CStr

inductive ErrCode where
  | BLOB_EXEC_SUCCESS
  | SYSCFG_FAILURE
  | INVALID_IP
  | INVALID_PORT
  | INVALID_PROTOCOL
  | INVALID_DMZ_WAN_IP
  | INVALID_MAC
  | STATIC_IP_NOT_IN_LANRANGE
  | LAN_PARAM_GATEWAY_IP_INVALID
  | LAN_PARAM_IP_RANGE_INVALID
  | LAN_PARAM_NETMASK_INVALID
  | LAN_PARAM_LEASETIME_INVALID
  | VALIDATION_FALIED
  | COSA_SYNCHRONIZE_FAILED
  | EMPTY_BLOB
  deriving DecidableEq, Repr

structure Err where
  ErrorCode : ErrCode
  ErrorMsg : CStr
  deriving DecidableEq, Repr

def syscfg_get {n : ℕ} [NeZero n] (faults : Faults) (name : CStr) (s : SyscfgState) :
    Bool × Buf n × SyscfgState :=
  match faults s.calls, s.db name with
  | false, some v => (true, Buf.snprintf v, ⟨s.db, s.calls + 1⟩)
  | _, _ => (false, Buf.empty, ⟨s.db, s.calls + 1⟩)

def syscfg_set (faults : Faults) (name value : CStr) (s : SyscfgState) : Bool × SyscfgState :=
  setCall faults name value s

def syscfg_unset (faults : Faults) (name : CStr) (s : SyscfgState) : Bool × SyscfgState :=
  unsetCall faults name s

def syscfg_commit (faults : Faults) (s : SyscfgState) : Bool × SyscfgState := commitCall faults s

theorem syscfg_get_db {n : ℕ} [NeZero n] (faults : Faults) (name : CStr) (s : SyscfgState) :
    (syscfg_get (n := n) faults name s).2.2 = ⟨s.db, s.calls + 1⟩ := by
  unfold syscfg_get
  split <;> rfl

theorem syscfg_get_noFaults {n : ℕ} [NeZero n] (name : CStr) (s : SyscfgState) :
    syscfg_get (n := n) noFaults name s =
      ((s.db name).isSome, Buf.snprintf ((s.db name).getD []), ⟨s.db, s.calls + 1⟩) := by
  unfold syscfg_get
  rw [show noFaults s.calls = false from rfl]
  cases s.db name with
  | none =>
    have hempty : (Buf.empty : Buf n) = Buf.snprintf [] := by
      refine Buf.text_injective ?_
      rw [Buf.text_snprintf, List.take_nil, Buf.text_empty]
    change (false, (Buf.empty : Buf n), _) = _
    rw [hempty]
    rfl
  | some v => rfl

end CcspPandM.Syscfg
