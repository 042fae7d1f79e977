import KeyCustody.Dialogue

/-!
# Planned faults

A service can be put behind a plan of faults.  For each kind of request the
plan lists what happens to the next requests of that kind: a request is passed
on, fails or crashes.  What fails or crashes does not reach the service behind
the plan.  Releasing a client cannot fail, so a failure planned for it is
passed on.
-/

namespace KeyCustody

inductive Fault
  | pass
  | fail (error : StoreError)
  | crash (message : String)
deriving DecidableEq, Repr

/-- What becomes of a fault when it meets a kind of request. -/
def Fault.against : Fault → CallKind → Fault
  | .fail _, .close => .pass
  | fault, _ => fault

/-- The faults still planned for each kind of request. -/
structure FaultPlan where
  connect : List Fault := []
  close : List Fault := []
  mounts : List Fault := []
  enable : List Fault := []
  read : List Fault := []
  patch : List Fault := []
  put : List Fault := []
deriving DecidableEq, Repr

namespace FaultPlan

def faults (plan : FaultPlan) : CallKind → List Fault
  | .connect => plan.connect
  | .close => plan.close
  | .mounts => plan.mounts
  | .enable => plan.enable
  | .read => plan.read
  | .patch => plan.patch
  | .put => plan.put

def withFaults (plan : FaultPlan) (kind : CallKind) (faults : List Fault) :
    FaultPlan :=
  match kind with
  | .connect => { plan with connect := faults }
  | .close => { plan with close := faults }
  | .mounts => { plan with mounts := faults }
  | .enable => { plan with enable := faults }
  | .read => { plan with read := faults }
  | .patch => { plan with patch := faults }
  | .put => { plan with put := faults }

/-- The fault for the next request of a kind and the plan for the ones after
it.  A request that nothing is planned for is passed on. -/
def next (plan : FaultPlan) (kind : CallKind) : Fault × FaultPlan :=
  match plan.faults kind with
  | [] => (.pass, plan)
  | fault :: later => (fault, plan.withFaults kind later)

def append (plan later : FaultPlan) : FaultPlan where
  connect := plan.connect ++ later.connect
  close := plan.close ++ later.close
  mounts := plan.mounts ++ later.mounts
  enable := plan.enable ++ later.enable
  read := plan.read ++ later.read
  patch := plan.patch ++ later.patch
  put := plan.put ++ later.put

end FaultPlan

/-- The state of a service behind a plan of faults. -/
structure Guarded (σ : Type) where
  inner : σ
  plan : FaultPlan := {}

namespace Service

variable {σ : Type}

/-- Puts a service behind a plan of faults. -/
def guarded (service : Service σ) : Service (Guarded σ) where
  connect state :=
    let (fault, plan) := state.plan.next .connect
    match fault with
    | .fail error => (.fault error, { state with plan })
    | .crash message => (.crash message, { state with plan })
    | .pass =>
        let (reply, inner) := service.connect state.inner
        (reply, { inner, plan })
  answer client call state :=
    let (fault, plan) := state.plan.next call.kind
    match fault.against call.kind with
    | .fail error => (.fault error, { state with plan })
    | .crash message => (.crash message, { state with plan })
    | .pass =>
        let (reply, inner) := service.answer client call state.inner
        (reply, { inner, plan })

end Service

end KeyCustody
