import MeisterStack.Agent.Record

/-!
# The VMM processes of one VM

The processes that exist for a VM on its host, which of them are in the VM's cgroup slice, which one
serves the API socket, and which one the hypervisor driver has in its process map. Only the map is
lost in a crash.
-/

namespace MeisterStack.Agent

open List Nat

inductive Guest where
  | empty
  | listening
  | booted
  | received
  deriving DecidableEq

def Guest.present : Guest → Bool
  | .booted | .received => true
  | _ => false

structure Vmm where
  pid : Pid
  inSlice : Bool
  guest : Guest

structure Host where
  vmms : List Vmm
  nextPid : Pid
  socket : Option Pid
  tracked : Option Pid

namespace Host

def idle : Host := ⟨[], 1, none, none⟩

def launch (h : Host) : Host :=
  { h with
    vmms := h.vmms ++ [⟨h.nextPid, false, .empty⟩]
    nextPid := h.nextPid + 1
    socket := some h.nextPid }

def noLaunch (h : Host) : Host := { h with socket := none }

def exit (h : Host) (pid : Pid) : Host :=
  { h with vmms := h.vmms.filter fun v => v.pid ≠ pid }

def attach (h : Host) (pid : Pid) : Host :=
  { h with vmms := h.vmms.map fun v => if v.pid = pid then { v with inSlice := true } else v }

def setGuest (h : Host) (pid : Pid) (guest : Guest) : Host :=
  { h with vmms := h.vmms.map fun v => if v.pid = pid then { v with guest } else v }

def receive (h : Host) (pid : Pid) : Host :=
  { h with
    vmms := h.vmms.map fun v =>
      if v.pid = pid ∧ v.guest = .listening then { v with guest := .received } else v }

def track (h : Host) (pid : Pid) : Host := { h with tracked := some pid }

def emptySlice (h : Host) : Host := { h with vmms := h.vmms.filter fun v => !v.inSlice }

def destroy (h : Host) (survives : Bool) : Host :=
  match h.tracked with
  | none => h
  | some pid => { (if survives then h else h.exit pid) with tracked := none }

def start (h : Host) : Host :=
  match h.tracked, h.socket with
  | some _, some pid => h.setGuest pid .booted
  | _, _ => h

def SliceEmpty (h : Host) : Prop := ∀ v ∈ h.vmms, v.inSlice = false

def SocketIn (h : Host) : Prop := ∀ v ∈ h.vmms, h.socket = some v.pid → v.inSlice

def Blank (h : Host) (pid : Pid) : Prop := ∀ v ∈ h.vmms, v.pid = pid → v.guest = .empty

-- nobody in the slice has a guest or listens for one
def NoGuest (h : Host) : Prop := ∀ v ∈ h.vmms, v.inSlice → v.guest = .empty

structure Sound (h : Host) : Prop where
  guest : ∀ v ∈ h.vmms, v.guest.present → v.inSlice
  slice : ∀ v ∈ h.vmms, v.inSlice → h.socket = some v.pid
  fresh : ∀ v ∈ h.vmms, v.pid < h.nextPid

theorem sound_idle : idle.Sound := ⟨by simp [idle], by simp [idle], by simp [idle]⟩

variable {h : Host} {pid : Pid} {guest : Guest}

theorem NoGuest.present (hn : h.NoGuest) (hs : h.Sound) :
    ∀ v ∈ h.vmms, v.guest.present = false := by
  intro v hv
  refine Bool.eq_false_iff.mpr fun hg => ?_
  simp [hn v hv (hs.guest v hv hg), Guest.present] at hg

theorem SliceEmpty.noGuest (he : h.SliceEmpty) : h.NoGuest :=
  fun v hv hin => by simp [he v hv] at hin

theorem SliceEmpty.launch (he : h.SliceEmpty) : h.launch.SliceEmpty := by
  intro v hv
  simp only [Host.launch, mem_append, mem_singleton] at hv
  rcases hv with hv | rfl
  · exact he v hv
  · rfl

theorem Sound.launch (hs : h.Sound) (he : h.SliceEmpty) : h.launch.Sound := by
  refine ⟨fun v hv hg => ?_, fun v hv hin => ?_, fun v hv => ?_⟩
  · simp only [Host.launch, mem_append, mem_singleton] at hv
    rcases hv with hv | rfl
    · exact hs.guest v hv hg
    · simp [Guest.present] at hg
  · rw [he.launch v hv] at hin
    cases hin
  · simp only [Host.launch, mem_append, mem_singleton] at hv
    rcases hv with hv | rfl
    · exact lt_succ_of_lt (hs.fresh v hv)
    · exact lt_succ_self _

theorem Sound.blank_launch (hs : h.Sound) : h.launch.Blank h.nextPid := by
  intro v hv hpid
  simp only [Host.launch, mem_append, mem_singleton] at hv
  rcases hv with hv | rfl
  · exact absurd hpid (Nat.ne_of_lt (hs.fresh v hv))
  · rfl

theorem Sound.noLaunch (hs : h.Sound) (he : h.SliceEmpty) : h.noLaunch.Sound :=
  ⟨hs.guest, fun v hv hin => by simp [he v hv] at hin, hs.fresh⟩

variable {v : Vmm}

theorem mem_exit (hv : v ∈ (h.exit pid).vmms) : v ∈ h.vmms :=
  (mem_filter.mp hv).1

theorem Sound.exit (hs : h.Sound) : (h.exit pid).Sound :=
  ⟨fun v hv => hs.guest v (mem_exit hv), fun v hv => hs.slice v (mem_exit hv),
    fun v hv => hs.fresh v (mem_exit hv)⟩

theorem Blank.exit {pid'} (hb : h.Blank pid) : (h.exit pid').Blank pid :=
  fun v hv => hb v (mem_exit hv)

theorem NoGuest.exit (hn : h.NoGuest) : (h.exit pid).NoGuest :=
  fun v hv => hn v (mem_exit hv)

theorem SliceEmpty.exit (he : h.SliceEmpty) : (h.exit pid).SliceEmpty :=
  fun v hv => he v (mem_exit hv)

theorem SocketIn.exit (hi : h.SocketIn) : (h.exit pid).SocketIn :=
  fun v hv => hi v (mem_exit hv)

theorem mem_attach (hv : v ∈ (h.attach pid).vmms) :
    ∃ u ∈ h.vmms, v.pid = u.pid ∧ v.guest = u.guest ∧
      (v.inSlice = u.inSlice ∨ (v.pid = pid ∧ v.inSlice)) := by
  simp only [attach, mem_map] at hv
  obtain ⟨u, hu, rfl⟩ := hv
  refine ⟨u, hu, ?_⟩
  split_ifs with hpid
  · exact ⟨rfl, rfl, .inr ⟨hpid, rfl⟩⟩
  · exact ⟨rfl, rfl, .inl rfl⟩

theorem Sound.attach (hs : h.Sound) (hsocket : h.socket = some pid) : (h.attach pid).Sound := by
  refine ⟨fun v hv hg => ?_, fun v hv hin => ?_, fun v hv => ?_⟩ <;>
    obtain ⟨u, hu, hpid, hguest, hslice⟩ := mem_attach hv
  · rcases hslice with hslice | ⟨-, hin⟩
    · rw [hslice]
      exact hs.guest u hu (hguest ▸ hg)
    · exact hin
  · rcases hslice with hslice | ⟨rfl, -⟩
    · rw [hpid]
      exact hs.slice u hu (hslice ▸ hin)
    · exact hsocket
  · rw [hpid]
    exact hs.fresh u hu

theorem socketIn_attach (hsocket : h.socket = some pid) : (h.attach pid).SocketIn := by
  intro v hv hsock
  simp only [Host.attach, mem_map] at hv
  obtain ⟨u, -, rfl⟩ := hv
  split_ifs with hpid
  · rfl
  · rw [if_neg hpid] at hsock
    exact absurd (Option.some.inj (hsock.symm.trans hsocket)) hpid

theorem SliceEmpty.attach (he : h.SliceEmpty) (hb : h.Blank pid) : (h.attach pid).NoGuest := by
  intro v hv hin
  obtain ⟨u, hu, hpid, hguest, hslice | ⟨hv', -⟩⟩ := mem_attach hv
  · simp [hslice, he u hu] at hin
  · rw [hguest]
    exact hb u hu (hpid ▸ hv')

theorem mem_setGuest (hv : v ∈ (h.setGuest pid guest).vmms) :
    ∃ u ∈ h.vmms, v.pid = u.pid ∧ v.inSlice = u.inSlice ∧
      (v.guest = u.guest ∨ (u.pid = pid ∧ v.guest = guest)) := by
  simp only [setGuest, mem_map] at hv
  obtain ⟨u, hu, rfl⟩ := hv
  refine ⟨u, hu, ?_⟩
  split_ifs with hpid
  · exact ⟨rfl, rfl, .inr ⟨hpid, rfl⟩⟩
  · exact ⟨rfl, rfl, .inl rfl⟩

theorem Sound.setGuest (hs : h.Sound)
    (hin : ∀ v ∈ h.vmms, v.pid = pid → guest.present → v.inSlice) :
    (h.setGuest pid guest).Sound := by
  refine ⟨fun v hv hg => ?_, fun v hv hslice => ?_, fun v hv => ?_⟩ <;>
    obtain ⟨u, hu, hpid, hin', hguest⟩ := mem_setGuest hv
  · rw [hin']
    rcases hguest with hguest | ⟨hpid, hguest⟩
    · exact hs.guest u hu (hguest ▸ hg)
    · exact hin u hu hpid (hguest ▸ hg)
  · rw [hpid]
    exact hs.slice u hu (hin' ▸ hslice)
  · rw [hpid]
    exact hs.fresh u hu

theorem SliceEmpty.setGuest (he : h.SliceEmpty) : (h.setGuest pid guest).SliceEmpty := by
  intro v hv
  obtain ⟨u, hu, -, hin, -⟩ := mem_setGuest hv
  rw [hin]
  exact he u hu

theorem SocketIn.setGuest (hi : h.SocketIn) : (h.setGuest pid guest).SocketIn := by
  intro v hv hsocket
  obtain ⟨u, hu, hpid, hin, -⟩ := mem_setGuest hv
  rw [hin]
  exact hi u hu (hpid ▸ hsocket)

theorem mem_receive (hv : v ∈ (h.receive pid).vmms) :
    ∃ u ∈ h.vmms, v.pid = u.pid ∧ v.inSlice = u.inSlice ∧
      (v.guest = u.guest ∨ (u.pid = pid ∧ u.guest = .listening)) := by
  simp only [receive, mem_map] at hv
  obtain ⟨u, hu, rfl⟩ := hv
  refine ⟨u, hu, ?_⟩
  split_ifs with hlistening
  · exact ⟨rfl, rfl, .inr hlistening⟩
  · exact ⟨rfl, rfl, .inl rfl⟩

theorem Sound.receive (hs : h.Sound) (hin : ∀ v ∈ h.vmms, v.pid = pid → v.inSlice) :
    (h.receive pid).Sound := by
  refine ⟨fun v hv hg => ?_, fun v hv hslice => ?_, fun v hv => ?_⟩ <;>
    obtain ⟨u, hu, hpid, hin', hguest⟩ := mem_receive hv
  · rw [hin']
    rcases hguest with hguest | ⟨hpid, -⟩
    · exact hs.guest u hu (hguest ▸ hg)
    · exact hin u hu hpid
  · rw [hpid]
    exact hs.slice u hu (hin' ▸ hslice)
  · rw [hpid]
    exact hs.fresh u hu

theorem Blank.receive {pid'} (hb : h.Blank pid) : (h.receive pid').Blank pid := by
  intro v hv hpid
  obtain ⟨u, hu, hpid', -, hguest | ⟨-, hguest⟩⟩ := mem_receive hv
  · rw [hguest]
    exact hb u hu (hpid' ▸ hpid)
  · cases hguest.symm.trans (hb u hu (hpid' ▸ hpid))

theorem NoGuest.receive (hn : h.NoGuest) : (h.receive pid).NoGuest := by
  intro v hv hin
  obtain ⟨u, hu, -, hin', hguest | ⟨-, hguest⟩⟩ := mem_receive hv
  · rw [hguest]
    exact hn u hu (hin' ▸ hin)
  · cases hguest.symm.trans (hn u hu (hin' ▸ hin))

theorem SliceEmpty.receive (he : h.SliceEmpty) : (h.receive pid).SliceEmpty := by
  intro v hv
  obtain ⟨u, hu, -, hin, -⟩ := mem_receive hv
  rw [hin]
  exact he u hu

theorem SocketIn.receive (hi : h.SocketIn) : (h.receive pid).SocketIn := by
  intro v hv hsocket
  obtain ⟨u, hu, hpid, hin, -⟩ := mem_receive hv
  rw [hin]
  exact hi u hu (hpid ▸ hsocket)

theorem sliceEmpty_emptySlice : h.emptySlice.SliceEmpty := by
  intro v hv
  simpa using (mem_filter.mp hv).2

theorem Sound.emptySlice (hs : h.Sound) : h.emptySlice.Sound :=
  ⟨fun v hv => hs.guest v (mem_filter.mp hv).1, fun v hv => hs.slice v (mem_filter.mp hv).1,
    fun v hv => hs.fresh v (mem_filter.mp hv).1⟩

theorem SocketIn.emptySlice (hi : h.SocketIn) : h.emptySlice.SocketIn :=
  fun v hv => hi v (mem_filter.mp hv).1

theorem destroy_vmms (h : Host) (survives : Bool) :
    (h.destroy survives).socket = h.socket ∧ (h.destroy survives).nextPid = h.nextPid ∧
      ∀ v ∈ (h.destroy survives).vmms, v ∈ h.vmms := by
  unfold destroy
  split
  · exact ⟨rfl, rfl, fun v hv => hv⟩
  · cases survives with
    | true => exact ⟨rfl, rfl, fun v hv => hv⟩
    | false => exact ⟨rfl, rfl, fun v hv => mem_exit hv⟩

variable {survives : Bool}

theorem Sound.destroy (hs : h.Sound) : (h.destroy survives).Sound := by
  obtain ⟨hsocket, hpid, hmem⟩ := destroy_vmms h survives
  refine ⟨fun v hv => hs.guest v (hmem v hv), fun v hv hin => ?_, fun v hv => ?_⟩
  · rw [hsocket]
    exact hs.slice v (hmem v hv) hin
  · rw [hpid]
    exact hs.fresh v (hmem v hv)

theorem SliceEmpty.destroy (he : h.SliceEmpty) : (h.destroy survives).SliceEmpty :=
  fun v hv => he v ((destroy_vmms h survives).2.2 v hv)

theorem SocketIn.destroy (hi : h.SocketIn) : (h.destroy survives).SocketIn := by
  obtain ⟨hsocket, -, hmem⟩ := destroy_vmms h survives
  exact fun v hv hsock => hi v (hmem v hv) (hsocket ▸ hsock)

theorem Sound.start (hs : h.Sound) (hi : h.SocketIn) : h.start.Sound := by
  unfold Host.start
  split
  · rename_i hsocket
    refine hs.setGuest fun v hv hpid _ => hi v hv ?_
    rw [hsocket, hpid]
  · exact hs

theorem SliceEmpty.start (he : h.SliceEmpty) : h.start.SliceEmpty := by
  unfold Host.start
  split
  · exact he.setGuest
  · exact he

theorem SocketIn.start (hi : h.SocketIn) : h.start.SocketIn := by
  unfold Host.start
  split
  · exact hi.setGuest
  · exact hi

end Host

end MeisterStack.Agent
