import Xinim.Proc.Sched

/-! Process groups and sessions (kernel/process_group.cpp). The groups and the
sessions are each on a global list linked through their own `next` and `prev`,
newest first, and the members of a group are linked through the PCBs'
`pg_next` and `pg_prev` from the group's `members`. A group or a session is
found by walking its list; as every object ever allocated is named below
`fresh`, that walk is bounded by `fresh`. Allocations are taken to succeed. -/

namespace Xinim.Proc
open Intrusive

def ePerm : ℤ := 1

namespace Kernel

def createProcessGroup (k : Kernel) (pgid sid : Pid) : Kernel × ObjId :=
  let pg := k.fresh
  let k := { k with
    fresh := k.fresh + 1
    groupPgid := Function.update k.groupPgid pg pgid
    groupSessionId := Function.update k.groupSessionId pg sid
    members := Function.update k.members pg none
    groupNext := Function.update k.groupNext pg k.gProcessGroupsHead
    groupPrev := Function.update k.groupPrev pg none
    memberCount := Function.update k.memberCount pg 0
    isForeground := Function.update k.isForeground pg false }
  let k := match k.gProcessGroupsHead with
    | some head => { k with groupPrev := Function.update k.groupPrev head (some pg) }
    | none => k
  ({ k with gProcessGroupsHead := some pg }, pg)

def findProcessGroup (k : Kernel) (pgid : Pid) : Option ObjId :=
  (walk k.groupNext k.fresh k.gProcessGroupsHead).find? (k.groupPgid · = pgid)

def addToProcessGroup (k : Kernel) (pcb : Pid) (pg : ObjId) : Kernel :=
  let k := { k with
    pgid := Function.update k.pgid pcb (k.groupPgid pg)
    pgNext := Function.update k.pgNext pcb (k.members pg)
    pgPrev := Function.update k.pgPrev pcb none }
  let k := match k.members pg with
    | some m => { k with pgPrev := Function.update k.pgPrev m (some pcb) }
    | none => k
  { k with
    members := Function.update k.members pg (some pcb)
    memberCount := Function.update k.memberCount pg (k.memberCount pg + 1) }

def findSession (k : Kernel) (sid : Pid) : Option ObjId :=
  (walk k.sessionNext k.fresh k.gSessionsHead).find? (k.sessionSid · = sid)

/-- `delete_process_group`: the group leaves the global list and stops being
its session's foreground group; the freed object keeps its links. -/
def deleteProcessGroup (k : Kernel) (pg : ObjId) : Kernel :=
  let k := match k.groupPrev pg with
    | some p => { k with groupNext := Function.update k.groupNext p (k.groupNext pg) }
    | none => { k with gProcessGroupsHead := k.groupNext pg }
  let k := match k.groupNext pg with
    | some n => { k with groupPrev := Function.update k.groupPrev n (k.groupPrev pg) }
    | none => k
  match k.findSession (k.groupSessionId pg) with
  | some s =>
    if k.foregroundGroup s = some pg then { k with foregroundGroup := Function.update k.foregroundGroup s none }
    else k
  | none => k

/-- `remove_from_process_group`: the group is the one `pcb->pgid` names, and
the unlink trusts the PCB's own links, member or not. -/
def removeFromProcessGroup (k : Kernel) (pcb : Pid) : Kernel :=
  match k.findProcessGroup (k.pgid pcb) with
  | none => k
  | some pg =>
    let k := match k.pgPrev pcb with
      | some p => { k with pgNext := Function.update k.pgNext p (k.pgNext pcb) }
      | none => { k with members := Function.update k.members pg (k.pgNext pcb) }
    let k := match k.pgNext pcb with
      | some n => { k with pgPrev := Function.update k.pgPrev n (k.pgPrev pcb) }
      | none => k
    let k := { k with
      memberCount := Function.update k.memberCount pg (k.memberCount pg - 1)
      pgNext := Function.update k.pgNext pcb none
      pgPrev := Function.update k.pgPrev pcb none }
    if k.memberCount pg = 0 then k.deleteProcessGroup pg else k

/-- `signal_process_group`: `send_signal` to each member along `pg_next`. The
walk is bounded by the number of PCBs. -/
def signalProcessGroup (k : Kernel) (pgid : Pid) (sig : ℤ) : Kernel × ℤ :=
  match k.findProcessGroup pgid with
  | none => (k, -eSrch)
  | some pg =>
    ((walk k.pgNext k.pcbs.length (k.members pg)).foldl (fun k pcb => (k.sendSignal pcb sig).1) k, 0)

def createSession (k : Kernel) (sid : Pid) : Kernel × ObjId :=
  let s := k.fresh
  let k := { k with
    fresh := k.fresh + 1
    sessionSid := Function.update k.sessionSid s sid
    foregroundGroup := Function.update k.foregroundGroup s none
    sessionNext := Function.update k.sessionNext s k.gSessionsHead
    sessionPrev := Function.update k.sessionPrev s none }
  let k := match k.gSessionsHead with
    | some head => { k with sessionPrev := Function.update k.sessionPrev head (some s) }
    | none => k
  ({ k with gSessionsHead := some s }, s)

def sysSetpgid (k : Kernel) (pid pgid : UInt64) : Kernel × ℤ :=
  match k.gCurrentProcess with
  | none => (k, -eSrch)
  | some current =>
    let pid : Pid := if pid = 0 then current else toPid pid
    let pgid : Pid := if pgid = 0 then pid else toPid pgid
    match k.findProcessByPid pid with
    | none => (k, -eSrch)
    | some target =>
      if target ≠ current ∧ k.parentPid target ≠ current then (k, -ePerm)
      else if k.sid target ≠ k.sid current then (k, -ePerm)
      else
        let k := if k.pgid target ≠ 0 then k.removeFromProcessGroup target else k
        let (k, pg) := match k.findProcessGroup pgid with
          | some pg => (k, pg)
          | none => k.createProcessGroup pgid (k.sid target)
        -- the session check comes after the target has left its group
        if k.groupSessionId pg ≠ k.sid target then (k, -ePerm)
        else (k.addToProcessGroup target pg, 0)

def sysSetsid (k : Kernel) : Kernel × ℤ :=
  match k.gCurrentProcess with
  | none => (k, -eSrch)
  | some current =>
    if current = k.pgid current then (k, -ePerm)
    else
      let k := if k.pgid current ≠ 0 then k.removeFromProcessGroup current else k
      let k := (k.createSession current).1
      let (k, pg) := k.createProcessGroup current current
      let k := { k with sid := Function.update k.sid current current }
      (k.addToProcessGroup current pg, k.sid current)

end Kernel

end Xinim.Proc
