import RobotBridge.CommandLine.Parse
import RobotBridge.CommandLine.Run
import RobotBridge.Proofs.Envelope.RoundTrip
import RobotBridge.Proofs.Payload.RoundTrip
import RobotBridge.Proofs.Session.Errands

/-! What motion commands send: one envelope at most, from which the command can be read back exactly if
all its floats are finite. A command with another float is sent all the same. -/
namespace RobotBridge
open Json (ReadsBack)
open Numeric (Single)

/-! ### Payloads on the wire -/

private def Json.Sendable (d : Nat) (j : Json) : Prop := j.WellFormed ∧ j.depth ≤ d

namespace Form

variable {d : Nat}

private theorem sendable_single (x : Single) (d : Nat) : (single x).toJson.Sendable d := by
  rw [toJson]
  split
  · exact ⟨.double _, Nat.zero_le _⟩
  · exact ⟨.null, Nat.zero_le _⟩

private theorem sendable_integer {n : Int} (hlow : Int64.minValue.toInt ≤ n) (hhigh : n < UInt64.size) (d : Nat) :
    (integer n).toJson.Sendable d := ⟨.integer hlow hhigh, Nat.zero_le _⟩

private theorem sendable_time (n : Int64) (d : Nat) : (time n).toJson.Sendable d :=
  sendable_integer (Int64.le_toInt n) (Int.lt_trans (Int64.toInt_lt n) (by decide)) d

private theorem sendable_word (n : UInt64) (d : Nat) : (word n).toJson.Sendable d :=
  sendable_integer (Int.le_trans (by decide) (Int.natCast_nonneg _)) (Int.ofNat_lt.mpr n.toNat_lt) d

private theorem sendable_list {items : List Form} (h : ∀ item ∈ items, item.toJson.Sendable d) :
    (list items).toJson.Sendable (d + 1) := by
  rw [toJson, toJsonItems_eq]
  refine ⟨.array ?_, Nat.succ_le_succ (Json.itemsDepth_le.mpr ?_)⟩
  · exact List.forall_mem_map.mpr fun item hm => (h item hm).1
  · exact List.forall_mem_map.mpr fun item hm => (h item hm).2

private theorem sendable_record {members : List (String × Form)} (h : ∀ m ∈ members, m.2.toJson.Sendable d) :
    (record members).toJson.Sendable (d + 1) := by
  rw [toJson, toJsonMembers_eq]
  refine ⟨Json.wellFormed_ofMembers ?_, Json.depth_ofMembers ?_⟩
  · exact List.forall_mem_map.mpr fun m hm => (h m hm).1
  · exact List.forall_mem_map.mpr fun m hm => (h m hm).2

private theorem sendable_timed {members : List (String × Form)} (utime : Option Int64)
    (h : ∀ m ∈ members, m.2.toJson.Sendable d) :
    (record (optionalMember "utime" (utime.map .time) ++ members)).toJson.Sendable (d + 1) := by
  refine sendable_record (List.forall_mem_append.mpr ⟨fun m hm => ?_, h⟩)
  cases utime with
  | none => exact absurd hm List.not_mem_nil
  | some n =>
    rw [List.mem_singleton.mp hm]
    exact sendable_time n d

end Form

private theorem Twist.sendable (t : Twist) : t.form.toJson.Sendable 1 :=
  Form.sendable_timed t.utime (by simp [Form.sendable_single])

private theorem Pose.sendable (p : Pose) : p.form.toJson.Sendable 1 :=
  Form.sendable_timed p.utime (by simp [Form.sendable_single])

private theorem Path.sendable (p : Path) : p.form.toJson.Sendable 3 := by
  refine Form.sendable_timed p.utime (List.forall_mem_cons.mpr ⟨Form.sendable_word _ 2, ?_⟩)
  refine List.forall_mem_singleton.mpr (Form.sendable_list fun item hm => ?_)
  obtain ⟨pose, -, rfl⟩ := List.mem_map.mp hm
  exact pose.sendable

private theorem Envelope.decode_sendable {e : Envelope} {data : Json} (he : e.data = some data)
    (h : data.Sendable 3) (hx : ∀ x ∈ data.doubles, ReadsBack x) : decode e.encode = .ok e := by
  have hdata {P : Json → Prop} (hp : P data) : ∀ data ∈ e.data, P data := by
    rintro _ hm
    obtain rfl := Option.some.inj (he.symm.trans hm)
    exact hp
  have hparse := parse?_encode (hdata h.1) (hdata hx)
  rw [if_pos (hdata (Nat.le_trans h.2 (by decide)))] at hparse
  exact decode_eq_ok.mpr ⟨_, hparse, gives_members e⟩

namespace Session
open Exchange (publishReply)

variable {α : Type} {timeout : Duration} {s : Session α} {r : Record α} {log : Log α} {id : Nat}
  {script current : Script α} {ns : List Nat} {x : Exchange} {next : Exchange.Outcome → Script α}

/-! ### Calls of one exchange -/

private theorem Went.single (h : Went log id script ns current) (hx : script.oneShot? = some (x, next))
    (hnext : ∀ outcome, (next outcome).oneShot? = Option.none) :
    (ns = [] ∧ current = script) ∨
      ∃ n start, ns = [n] ∧ (start, .began n id script) ∈ log ∧ current.oneShot? = Option.none := by
  induction h with
  | none => exact .inl ⟨rfl, rfl⟩
  | @snoc _ n start _ _ _ outcome _ hb hx' _ ih =>
    rcases ih with ⟨rfl, rfl⟩ | ⟨_, _, _, _, hover⟩
    · obtain ⟨rfl, rfl⟩ := Prod.mk.inj (Option.some.inj (hx'.symm.trans hx))
      exact .inr ⟨n, start, rfl, hb, hnext outcome⟩
    · rw [hover] at hx'
      contradiction

/-- A call of one exchange has one line as soon as its script goes on, and no line before. -/
private theorem Recorded.single (h : Recorded timeout s r) (hid : r.scripts[id]? = some script)
    (hx : script.oneShot? = some (x, next)) (hnext : ∀ outcome, ∃ a, next outcome = .finish a) :
    (linesOf id r.log = [] ∧ s.stage? id = some (.ready script)) ∨
      ∃ n start, linesOf id r.log = [n] ∧ (start, .began n id script) ∈ r.log := by
  have hover (outcome : Exchange.Outcome) : (next outcome).oneShot? = none := by
    obtain ⟨a, ha⟩ := hnext outcome
    rw [ha]
    rfl
  have ho : script.OneShots := .step hx fun outcome => by
    obtain ⟨a, ha⟩ := hnext outcome
    exact ha ▸ .finish
  cases h.journey hid ho with
  | ready hw _ hs =>
    rcases hw.single hx hover with ⟨hnil, rfl⟩ | ⟨n, start, hn, hb, -⟩
    · exact .inl ⟨hnil, hs⟩
    · exact .inr ⟨n, start, hn, hb⟩
  | @abroad ns _ n start _ _ _ _ hw hb hx' _ hn _ =>
    rcases hw.single hx hover with ⟨rfl, rfl⟩ | ⟨_, _, _, _, hend⟩
    · exact .inr ⟨n, start, hn, hb⟩
    · rw [hend] at hx'
      contradiction
  | home hw _ =>
    rcases hw.single hx hover with ⟨-, rfl⟩ | ⟨n, start, hn, hb, -⟩
    · contradiction
    · exact .inr ⟨n, start, hn, hb⟩

/-- A call that has nothing to do opens no line. -/
private theorem Recorded.idle (h : Recorded timeout s r) {a : α} (hid : r.scripts[id]? = some (.finish a)) :
    linesOf id r.log = [] ∧ (s.isSettled → s.stage? id = some (.done a)) := by
  have hstays {ns current} (hw : Went r.log id (.finish a) ns current) : ns = [] ∧ current = .finish a := by
    induction hw with
    | none => exact ⟨rfl, rfl⟩
    | snoc _ _ hx _ ih =>
      rw [ih.2] at hx
      contradiction
  cases h.journey hid .finish with
  | ready hw _ hs => exact ⟨(hstays hw).1, fun hr => absurd hs (rest_script hr)⟩
  | abroad hw _ hx _ _ _ =>
    rw [(hstays hw).2] at hx
    contradiction
  | home hw hs =>
    obtain ⟨hnil, ha⟩ := hstays hw
    exact ⟨hnil, fun _ => Script.finish.inj ha ▸ hs⟩

/-! ### Publishing -/

def sentBy (id : Nat) (log : Log α) : List String :=
  (linesOf id log).flatMap fun n => (queued n log).filterMap fun
    | .send text => some text
    | .close _ => none

/-- A call publishes on a channel, once at most, with data of some kind. -/
structure PublishesOnce (s : Session α) (log : Log α) (id : Nat) (channel : Channel) (Carries : Json → Prop) : Prop where
  /-- What is sent is one envelope, which the far end can read. -/
  sent : sentBy id log = [] ∨ ∃ e data, sentBy id log = [e.encode] ∧ e.kind = .publish ∧
    e.channel = some channel.wireName ∧ e.dtype = some channel.dtype ∧ e.data = some data ∧ Carries data ∧
    ((∀ x ∈ data.doubles, ReadsBack x) → Envelope.decode e.encode = .ok e)
  /-- No connection is opened but one for the channel. -/
  lines : linesOf id log = [] ∨ ∃ n, linesOf id log = [n] ∧ openings n log = [(.call id, channel.wireName)]
  /-- What is queued there is on its line to be sent, as long as there is a transport. -/
  commands : ∀ n ∈ linesOf id log, ∃ p, s.lines[n]? = some (.call id, p) ∧ (p.attached → p.commands = queued n log)
  /-- At rest the connection has been opened, and the envelope is sent if the call has seen it open. -/
  settled : s.isSettled → ∃ n, linesOf id log = [n] ∧ (sentBy id log ≠ [] ↔ .opened ∈ yielded n log)

private theorem Recorded.publishesOnce (h : Recorded timeout s r) {channel : Channel} {data : Json}
    {wrap : Except CallError Unit → α} {Carries : Json → Prop}
    (hid : r.scripts[id]? = some (.publish channel.wireName channel.dtype data fun result => .finish (wrap result)))
    (hdata : Carries data) (hsendable : data.Sendable 3) :
    PublishesOnce s r.log id channel Carries := by
  rcases h.single hid rfl fun _ => ⟨_, rfl⟩ with ⟨hnil, hs⟩ | ⟨n, start, hn, hb⟩
  · exact ⟨.inl (by rw [sentBy, hnil]; rfl), .inl hnil, fun n => h.logged.commands_of_mem_linesOf, fun hr => absurd hs (rest_script hr)⟩
  have hlife : EndToEnd timeout s r.log start n id channel.wireName
      (Envelope.publish channel.wireName channel.dtype data).encode (publishReply channel.wireName)
      fun result => .finish (wrap result) :=
    h.logged.endToEnd hb rfl (Exchange.publish_replies _ _ _) fun _ => rfl
  -- Of what is queued only the frame is text.
  have hsent : sentBy id r.log = if .opened ∈ yielded n r.log
      then [(Envelope.publish channel.wireName channel.dtype data).encode] else [] := by
    rw [sentBy, hn, List.flatMap_singleton, hlife.queued, List.filterMap_append]
    split <;> split <;> rfl
  refine ⟨?_, .inr ⟨n, hn, hlife.own.1⟩, fun n => h.logged.commands_of_mem_linesOf, fun _ => ⟨n, hn, ?_⟩⟩
  · rw [hsent]
    split
    · exact .inr ⟨_, data, rfl, rfl, rfl, rfl, rfl, hdata, Envelope.decode_sendable rfl hsendable⟩
    · exact .inl rfl
  · rw [hsent]
    split <;> simp_all

end Session

namespace Robot
open Session

variable {α : Type} {timeout : Duration} {s : Session α} {r : Record α}

/-- The subcommand makes the call with its arguments. -/
private theorem run_drive (vx vy wz : Single) : (CommandLine.run (.drive vx vy wz)).run =
    Except.mapError (CommandLine.Failure.mk []) <$> (drive vx vy wz).run := by
  refine congrArg (Script.publish _ _ _) (funext fun result => ?_)
  cases result <;> rfl

/-- Each motion command publishes once at most, and what is sent is one envelope of its channel. The
command comes back from the envelope's data if all its floats are finite, and otherwise nothing does: what
is sent then is no command at all. A path is sent if it has two poses or more. -/
theorem motion_commands (h : Recorded timeout s r) (id : Nat) (wrap : Except CallError Unit → α) :
    (∀ vx vy wz, (CommandLine.run (.drive vx vy wz)).run =
      Except.mapError (CommandLine.Failure.mk []) <$> (drive vx vy wz).run) ∧
    (∀ vx vy wz, r.scripts[id]? = some (wrap <$> (drive vx vy wz).run) →
      PublishesOnce s r.log id .motorVelCmd fun data =>
        ∀ t, Twist.ofJson data = .ok t ↔ (vx.isFinite ∧ vy.isFinite ∧ wz.isFinite) ∧ t = { vx, vy, wz }) ∧
    ∀ poses, r.scripts[id]? = some (wrap <$> (drivePath poses).run) →
      (2 ≤ poses.length → PublishesOnce s r.log id .controllerPath fun data =>
        ∀ p, Path.ofJson data = .ok p ↔
          (∀ pose ∈ poses, pose.x.isFinite ∧ pose.y.isFinite ∧ pose.theta.isFinite) ∧ p = Path.ofPoses poses) ∧
      (poses.length < UInt64.size → (Path.ofPoses poses).pathLength.toNat = poses.length) ∧
      (poses.length < 2 → linesOf id r.log = [] ∧ sentBy id r.log = [] ∧
        (s.isSettled → s.stage? id = some (.done (wrap (.ok ()))))) := by
  refine ⟨run_drive, fun vx vy wz hid => ?_, fun poses hid => ⟨fun hlen => ?_, fun hlen => ?_, fun hlen => ?_⟩⟩
  · obtain ⟨hwf, hdepth⟩ := Twist.sendable { vx, vy, wz }
    exact h.publishesOnce hid (Twist.restores _) ⟨hwf, Nat.le_trans hdepth (by decide)⟩
  · rw [drivePath, if_neg (Nat.not_le.mpr hlen)] at hid
    exact h.publishesOnce hid (Path.restores _) (Path.sendable _)
  · exact UInt64.toNat_ofNat_of_lt hlen
  · rw [drivePath, if_pos (Nat.le_of_lt_succ hlen)] at hid
    obtain ⟨hnil, hs⟩ := h.idle hid
    exact ⟨hnil, by rw [sentBy, hnil]; rfl, hs⟩

/-- A velocity command, a path of two poses and one of a single pose: the first is on its way, the second
is sent and the third has nothing to send. -/
theorem motion_commands_twoPoses :
    ∃ (s : Session (Except CallError Unit)) (r : Record (Except CallError Unit)),
      Recorded ⟨5⟩ s r ∧ s.isSettled ∧
      (PublishesOnce s r.log 0 .motorVelCmd fun data => ∀ t, Twist.ofJson data = .ok t ↔
        ((.zero : Single).isFinite ∧ (.zero : Single).isFinite ∧ (.zero : Single).isFinite) ∧ t = Twist.zero) ∧
      sentBy 0 r.log = [] ∧
      (PublishesOnce s r.log 1 .controllerPath fun data => ∀ p, Path.ofJson data = .ok p ↔
        (∀ pose ∈ [Pose.origin, Pose.origin], pose.x.isFinite ∧ pose.y.isFinite ∧ pose.theta.isFinite) ∧
          p = Path.ofPoses [Pose.origin, Pose.origin]) ∧
      sentBy 1 r.log ≠ [] ∧ linesOf 2 r.log = [] ∧ s.stage? 2 = some (.done (.ok ())) := by
  have called : Recorded ⟨5⟩ _ _ := .act (.call (id <$> (drive .zero .zero .zero).run)) .start
  have driven := called.move (m := .resume 0) rfl
  have led := (driven.act (.call (id <$> (drivePath [.origin, .origin]).run))).move (m := .resume 1) rfl
  have idle := (led.act (.call (id <$> (drivePath [.origin]).run))).move (m := .resume 2) rfl
  have sent := ((idle.act (.emit 1 .opened)).move (m := .take 1) rfl).move (m := .resume 1) rfl
  obtain ⟨-, hdrive, -⟩ := motion_commands sent 0 id
  obtain ⟨-, -, hpath⟩ := motion_commands sent 1 id
  obtain ⟨-, -, hshort⟩ := motion_commands sent 2 id
  obtain ⟨hnil, -, hdone⟩ := (hshort [.origin] rfl).2.2 (by decide)
  exact ⟨_, _, sent, rfl, hdrive _ _ _ rfl, rfl, (hpath _ rfl).1 (by decide), List.cons_ne_nil _ _, hnil, hdone rfl⟩

/-- Told on the command line to drive at a velocity that is no number, the program sends an envelope that
is no command and reports success. -/
theorem drive_nan :
    ∃ (s : Session (Except CommandLine.Failure Unit)) (r : Record (Except CommandLine.Failure Unit)) (data : Json),
      CommandLine.parse (fun _ => none) ["drive", "nan", "0", "0"] = .ok ({}, .drive .nan .zero .zero) ∧
      Recorded ⟨5⟩ s r ∧ s.isSettled ∧ r.scripts = [(CommandLine.run (.drive .nan .zero .zero)).run] ∧
      sentBy 0 r.log = [(Envelope.publish "MBOT_VEL_CMD" "twist2D_t" data).encode] ∧
      (∀ t, Twist.ofJson data ≠ .ok t) ∧ s.stage? 0 = some (.done (.ok ())) := by
  have called : Recorded ⟨5⟩ _ _ := .act (.call (CommandLine.run (.drive .nan .zero .zero)).run) .start
  have begun := called.move (m := .resume 0) rfl
  have sent := ((begun.act (.emit 0 .opened)).move (m := .take 0) rfl).move (m := .resume 0) rfl
  refine ⟨_, _, (Twist.form { vx := .nan, vy := .zero, wz := .zero }).toJson, rfl, sent, rfl, rfl, rfl, fun t ht => ?_, rfl⟩
  obtain ⟨⟨hvx, -⟩, -⟩ := (Twist.restores _ t).mp ht
  exact absurd hvx (by decide)

end Robot

end RobotBridge
