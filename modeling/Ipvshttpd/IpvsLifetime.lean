import Ipvshttpd.LibipvsClient

/-!
# The life of the object `ipvs`

`ipvs_interface` opens libipvs with `init`, which loads the kernel module and tries again if that
fails, and closes it in its destructor. Between the two a client calls libipvs.
-/

namespace Ipvshttpd

open CLib Resumption Libipvs Libipvs.Lib

/-! ## Texts of errors -/

/-- `EPERM` -/
def eperm : Int := 1

/-- `ENOENT` -/
def enoent : Int := 2

/-- `ESRCH` -/
def esrch : Int := 3

/-- `ENOMEM` -/
def enomem : Int := 12

/-- `EEXIST` -/
def eexist : Int := 17

/-- `EMSGSIZE` -/
def emsgsize : Int := 90

/-- `ENOPROTOOPT` -/
def enoprotoopt : Int := 92

/-- `EOPNOTSUPP` -/
def eopnotsupp : Int := 95

/-- The table of `ipvs_strerror`. A row without a function is for all of them. -/
def errorTable : List (Option IpvsFunc × Int × String) :=
  [(some .addService, eexist, "Service already exists"),
    (some .addService, enoent, "Scheduler or persistence engine not found"),
    (some .updateService, esrch, "No such service"),
    (some .updateService, enoent, "Scheduler or persistence engine not found"),
    (some .delService, esrch, "No such service"),
    (some .zeroService, esrch, "No such service"),
    (some .addDest, esrch, "Service not defined"),
    (some .addDest, eexist, "Destination already exists"),
    (some .updateDest, esrch, "Service not defined"),
    (some .updateDest, enoent, "No such destination"),
    (some .delDest, esrch, "Service not defined"),
    (some .delDest, enoent, "No such destination"),
    (some .startDaemon, eexist, "Daemon has already run"),
    (some .stopDaemon, esrch, "No daemon is running"),
    (some .getServices, esrch, "No such service"),
    (some .getDests, esrch, "No such service"),
    (some .getService, esrch, "No such service"),
    (none, eperm, "Permission denied (you must be root)"),
    (none, einval,
      "Invalid operation.  Possibly wrong module version, address not unicast, ..."),
    (none, enoprotoopt, "Protocol not available"),
    (none, enomem, "Memory allocation problem"),
    (none, eopnotsupp, "Operation not supported with IPv6"),
    (none, eafnosupport, "Operation not supported with specified address family"),
    (none, emsgsize, "Module is wrong version")]

/-- The first row for the function that was called last and the error; `strerror` is that of libc. -/
def ipvsStrerror (strerror : Int → Str) (func : Option IpvsFunc) (err : Int) : Str :=
  match errorTable.find? fun row => (row.1 = none ∨ row.1 = func) ∧ row.2.1 = err with
  | some row => lit row.2.2
  | none => strerror err

/-! ## The object -/

/-- What `ipvs_interface` asks for besides libipvs. The child of `spawn` executes `argv`, or exits
    with 1. -/
inductive HostCall where
  /-- `fork`, and `execv` in the child. -/
  | spawn (argv : List Str)
  /-- Waits for a child. -/
  | waitpid (child : Option Nat)
  /-- `log_error` -/
  | logError (message : Str)

/-- The answers: a process id and the status of a child, or an error. -/
abbrev HostCall.Answer : HostCall → Type
  | .spawn _ => Except Int Nat
  | .waitpid _ => Except Int (BitVec 32)
  | .logError _ => Unit

/-- Code of `ipvs_interface` that also calls libipvs. -/
abbrev Interface :=
  Stateful Statics (HostCall ⊕ NlCall) (SumAnswer HostCall.Answer NlCall.Answer) Fault

/-- `WIFEXITED` -/
def wifexited (status : BitVec 32) : Prop := status &&& 0x7f = 0

instance (status : BitVec 32) : Decidable (wifexited status) :=
  inferInstanceAs (Decidable (status &&& 0x7f = 0))

/-- `WEXITSTATUS` -/
def wexitstatus (status : BitVec 32) : BitVec 32 := (status &&& 0xff00) >>> 8

namespace Interface

/-- Code of libipvs. -/
def lib {α : Type} (p : Lib α) : Interface α := p.inr id

/-- A call of the host. -/
def host (e : HostCall) : Interface e.Answer := Stateful.call (Sum.inl e)

/-- `argv` of `m_modprobe_ipvs`. -/
def modprobeArgv : List Str := [lit "/sbin/modprobe", lit "--", lit "ip_vs"]

/-- If `fork` fails, `waitpid` is called with -1, and so for any child. -/
def mModprobeIpvs : Interface Int := do
  let child ← lib (ofAnswer (← host (.spawn modprobeArgv)))
  match ← lib (ofAnswer (← host (.waitpid child))) with
  | none => pure 1
  | some status => pure (if ¬ wifexited status ∨ wexitstatus status ≠ 0 then 1 else 0)

/-- The end of `init` with an error. -/
def initFailed (strerror : Int → Str) : Interface Bool := do
  let v ← get
  host (.logError (lit "Can't initialize ipvs: " ++ ipvsStrerror strerror v.ipvsFunc v.errno))
  pure false

/-- Initializes the ipvs interface. It returns true if successful. -/
def init (nl : Netlink.Libnl) (strerror : Int → Str) : Interface Bool := do
  if (← lib (ipvsInit nl)) ≠ 0 then do
    if (← mModprobeIpvs) ≠ 0 then initFailed strerror
    else if (← lib (ipvsInit nl)) ≠ 0 then initFailed strerror
    else pure true
  else pure true

/-- The destructor, which depends on `m_initialized`. -/
def destroy (initialized : Bool) : Interface Unit :=
  if initialized then lib ipvsClose else pure ()

end Interface

/-! ## What an object leaves -/

end Ipvshttpd
