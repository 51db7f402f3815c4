import AiEngine.Proofs.CallArguments

/-!
# A call is performed at most once

Messages get lost, system calls are refused, and after such a failure the
server may read something else than the client wrote. Whatever happens, a
proxy tells its caller of a success only when the server's function ran and
reported one: the object that the reply is read into starts as a failure, and
a function that could not read its request writes no reply at all.
-/

namespace AiEngine.Ref

open AiEngine.Lib

/-- The function that serves a call. -/
def ProxyCall.funcId : ProxyCall → FuncId
  | .initEngine _ _ => .initEngine
  | .destroyEngine _ => .destroyEngine
  | .syncExecuteAlgorithm _ _ _ _ => .syncExecuteAlgorithm
  | .asyncExecuteAlgorithm _ _ _ => .asyncExecuteAlgorithm
  | .loadAlgorithm _ _ _ _ => .loadAlgorithm
  | .unloadAlgorithm _ _ _ => .unloadAlgorithm
  | .setOption _ _ _ => .setOption
  | .getOption _ _ _ _ => .getOption
  | .registerCallback _ _ => .registerCallback
  | .unregisterCallback _ => .unregisterCallback

/-- What the server's function returns, and the server after it. -/
def AiInterface.perform {σ : Type} (api : AiInterface σ) (s : σ) :
    ProxyCall → Int32 × σ
  | .initEngine description _ => api.initEngine (some description) s
  | .destroyEngine c => api.destroyEngine c s
  | .syncExecuteAlgorithm c g d _ =>
      let (retCode, _, s) := api.syncExecuteAlgorithm c g d s
      (retCode, s)
  | .asyncExecuteAlgorithm c g d => api.asyncExecuteAlgorithm c g d s
  | .loadAlgorithm c g d _ =>
      let (retCode, _, s) := api.loadAlgorithm c g d s
      (retCode, s)
  | .unloadAlgorithm c g d => api.unloadAlgorithm c g d s
  | .setOption c o d => api.setOption c o d s
  | .getOption c o d _ =>
      let (retCode, _, s) := api.getOption c o d s
      (retCode, s)
  | .registerCallback c sid => api.registerCallback c sid s
  | .unregisterCallback c => api.unregisterCallback c s

/-- What the server's function returns when it succeeds. -/
def FuncId.Succeeds : FuncId → Int32 → Prop
  | .initEngine, clientId => clientId ≠ invalidClientId
  | _, retCode => retCode.toInt = Retcode.success

/-- The caller is told of a success. -/
def ProxyResult.Succeeded : ProxyResult → Prop
  | .code retCode => retCode = Retcode.success
  | .data retCode _ => retCode = Retcode.success
  | .client retCode c =>
      retCode = Retcode.success ∧ c.clientId ≠ invalidClientId

/-! ## What is performed

A call is performed with what the server reads in its message, which is the
caller's where no payload was given up.
-/

/-- In the message that the proxy of `c` writes, the server reads `c'`. It is
`c` where no payload of it is given up. -/
structure Link.Received {Io σ : Type} (l : Link Io σ) (r : Remote σ)
    (c c' : ProxyCall) : Prop where
  funcId : c'.funcId = c.funcId
  message : ∃ request h, l.writeCall c r.host = .ok (request, h) ∧
    l.ReadsCall request { h with shmKey := r.serverKey } c'
  own : l.PayloadsGo c r.host → c' = c

/-- The server of `r'` comes from that of `r` by some of the calls, in their
order, each performed once, with the arguments the server read in its message.
A call that the caller is told succeeded is one of them, and succeeded. -/
inductive Performs {Io σ : Type} (l : Link Io σ) :
    Remote σ → List (ProxyEnv × ProxyCall) → List ProxyResult → Remote σ →
      Prop where
  | nil {r : Remote σ} : Performs l r [] [] r
  | skipped {r r₁ r' : Remote σ} {env : ProxyEnv} {c : ProxyCall}
      {calls : List (ProxyEnv × ProxyCall)} {result : ProxyResult}
      {results : List ProxyResult}
      (hcall : l.call env r c = .ok (result, r₁))
      (hsame : r₁.server = r.server) (hfailed : ¬ result.Succeeded)
      (hrest : Performs l r₁ calls results r') :
      Performs l r ((env, c) :: calls) (result :: results) r'
  | performed {r r₁ r' : Remote σ} {env : ProxyEnv} {c c' : ProxyCall}
      {calls : List (ProxyEnv × ProxyCall)} {result : ProxyResult}
      {results : List ProxyResult}
      (hcall : l.call env r c = .ok (result, r₁))
      (hreceived : l.Received r c c')
      (hdone : r₁.server = (l.api.perform r.server c').2)
      (hok : result.Succeeded →
        c.funcId.Succeeds (l.api.perform r.server c').1)
      (hrest : Performs l r₁ calls results r') :
      Performs l r ((env, c) :: calls) (result :: results) r'

section

variable {Io : Type} {ser : Serializer Io} {holds : Io → List Item → Prop}
  {served : Nat → Bool}

/-! ## What is written stays

What a proxy writes later does not touch what it wrote before: the server
reads the first arguments whatever comes after them. -/

theorem Serializer.InOrder.twoInt32 (hser : ser.InOrder holds) {io : Io}
    {q : List Item} (hq : holds io q) (v w : Int32) :
    holds (ser.writeInt32 (ser.writeInt32 io v) w)
      (q ++ [.int32 v, .int32 w]) := by
  have hw := hser.writeInt32 (hser.writeInt32 hq (v := v)) (v := w)
  simpa using hw

/-- However it ends, the writer of a long payload only adds to the message. -/
theorem pushSharedMemory_appends (hser : ser.InOrder holds) {io io' : Io}
    {q : List Item} (hq : holds io q) {h h' : Host} {d : DataInfo}
    {uid : UInt32}
    (hrun : ipcIoPushSharedMemory ser served io h d uid = .ok (io', h')) :
    ∃ items, holds io' (q ++ items) := by
  have hsame : holds io (q ++ []) := by simpa using hq
  simp only [ipcIoPushSharedMemory] at hrun
  split at hrun
  · cases hrun
    exact ⟨[], hsame⟩
  split at hrun
  · cases hrun
    exact ⟨[], hsame⟩
  obtain ⟨src, -, hrun⟩ := Outcome.bind_eq_ok.mp hrun
  obtain ⟨copied, -, hrun⟩ := Outcome.bind_eq_ok.mp hrun
  split at hrun
  · cases hrun
    exact ⟨[], hsame⟩
  split at hrun
  · cases hrun
    exact ⟨[], hsame⟩
  split at hrun
  · cases hrun
    exact ⟨[], hsame⟩
  split at hrun
  · cases hrun
    exact ⟨[], hsame⟩
  · cases hrun
    exact ⟨_, hser.twoInt32 hq _ _⟩

/-- The writer of a payload that is as long as it says only adds to the
message. -/
theorem parcelDataInfo_appends (hser : ser.InOrder holds) {io io' : Io}
    {q : List Item} (hq : holds io q) {h h' : Host} {d : DataInfo}
    (hd : d.Passed) {uid : UInt32}
    (hrun : parcelDataInfo ser served io h d uid = .ok (io', h')) :
    ∃ items, holds io' (q ++ items) := by
  have hsame : holds io (q ++ []) := by simpa using hq
  simp only [parcelDataInfo] at hrun
  split at hrun
  · cases hrun
    exact ⟨[], hsame⟩
  next hcon =>
  split at hrun
  · cases hrun
    exact ⟨[], hsame⟩
  next hnull =>
  have hlead := hser.writeInt32 hq (v := Int32.ofInt d.length)
  split at hrun
  · cases hrun
    exact ⟨_, hlead⟩
  next hempty =>
  split at hrun
  · obtain ⟨bytes, hbytes, hrun⟩ := Outcome.bind_eq_ok.mp hrun
    cases hrun
    have hsize : (UInt32.ofInt d.length).toNat = bytes.length := by
      rcases hd with hnone | ⟨block, hblock, hlen⟩
      · rw [hnone] at hbytes
        cases hbytes
      · rw [hblock] at hbytes hcon
        cases hbytes
        have hpos : 0 < d.length := by simpa using hcon
        obtain ⟨heq, hmax⟩ := hlen hpos
        rw [heq, toNat_ofInt hmax]
    have hw := hser.writeBuffer (hser.writeUint32 hlead
      (v := UInt32.ofInt d.length)) hsize
    rw [List.append_assoc, List.append_assoc] at hw
    exact ⟨_, hw⟩
  · obtain ⟨items, hitems⟩ := pushSharedMemory_appends hser hlead hrun
    rw [List.append_assoc] at hitems
    exact ⟨_, hitems⟩

end

/-! ## One call

A call can fail at every system call on both sides, and the message can be
lost on its way there and back. In each case the server either was not asked,
or was asked once, with what it has read. -/

namespace Link

variable {Io σ : Type} {l : Link Io σ} {holds : Io → List Item → Prop}

theorem callback_first {n : Nat} {owner owner' : Vector UInt32 (n + 1)}
    {reply : Io} (hrun : l.callback owner reply = .ok owner') :
    owner'[0] =
      ((l.ser.readInt32 reply).1.map Int32.toUInt32).getD owner[0] := by
  simp only [callback] at hrun
  obtain ⟨first, hfirst, hrun⟩ := Outcome.bind_eq_ok.mp hrun
  have hzero : first[0] =
      ((l.ser.readInt32 reply).1.map Int32.toUInt32).getD owner[0] := by
    cases hv : (l.ser.readInt32 reply).1 with
    | none =>
        rw [hv] at hfirst
        cases hfirst
        rfl
    | some v =>
        simp only [hv, Option.map_some, writeWord] at hfirst
        rw [dif_pos (Nat.succ_pos n)] at hfirst
        cases hfirst
        simp
  rw [← hzero]
  simp only [writeWord] at hrun
  split at hrun
  · cases hrun
    rfl
  · split at hrun
    · cases hrun
      simp
    · cases hrun

/-- What a function that replies with a code does: it writes nothing and
leaves the server alone, or it was called and the reply is its code. -/
theorem invokeCode_cases {α : Type} {read : Io → Host → Ipc (UnParcelled Io α)}
    {call : α → σ → Int32 × σ} {kept : α → DataInfo} {req reply : Io} {s : σ}
    {h : Host} {i : Invoked Io σ}
    (hrun : l.invokeCode read call kept req reply s h = .ok i) :
    (i.reply = reply ∧ i.server = s) ∨
      ∃ a, ReadsAs read req h a ∧ i.server = (call a s).2 ∧
        i.reply = l.ser.writeInt32 reply (call a s).1 := by
  obtain ⟨r, hread, hrun⟩ := Outcome.bind_eq_ok.mp hrun
  split at hrun
  · cases hrun
    exact .inl ⟨rfl, rfl⟩
  · next hok =>
      obtain ⟨freed, -, hrun⟩ := Outcome.bind_eq_ok.mp hrun
      cases hrun
      exact .inr ⟨r.out, ⟨r, hread, not_not.mp hok, rfl⟩, rfl, rfl⟩

theorem invokeData_cases {α : Type} (hser : l.ser.InOrder holds)
    {read : Io → Host → Ipc (UnParcelled Io α)}
    {call : α → σ → Int32 × DataInfo × σ} {clientUid : α → UInt32}
    {kept : α → DataInfo} (hout : ∀ a s, (call a s).2.1.Passed) {req : Io}
    {s : σ} {h : Host} {i : Invoked Io σ}
    (hrun : l.invokeData read call clientUid kept req l.ser.init s h =
      .ok i) :
    (i.reply = l.ser.init ∧ i.server = s) ∨
      ∃ a items, ReadsAs read req h a ∧ i.server = (call a s).2.2 ∧
        holds i.reply (.int32 (call a s).1 :: items) := by
  obtain ⟨r, hread, hrun⟩ := Outcome.bind_eq_ok.mp hrun
  split at hrun
  · cases hrun
    exact .inl ⟨rfl, rfl⟩
  · next hok =>
      obtain ⟨⟨reply, h'⟩, hparcel, hrun⟩ := Outcome.bind_eq_ok.mp hrun
      obtain ⟨freedOut, -, hrun⟩ := Outcome.bind_eq_ok.mp hrun
      obtain ⟨freed, -, hrun⟩ := Outcome.bind_eq_ok.mp hrun
      cases hrun
      obtain ⟨items, hitems⟩ := parcelDataInfo_appends hser.toInOrder
        (hser.writeInt32 hser.init) (hout r.out s) hparcel
      exact .inr ⟨r.out, items, ⟨r, hread, not_not.mp hok, rfl⟩, rfl, hitems⟩

theorem transact_cases {delivery : Transmission} {funcId : FuncId}
    {request : Io} {r r' : Remote σ} {reply : Option Io}
    (hrun : r.transact l delivery funcId request = .ok (reply, r')) :
    (reply = none ∧ r'.server = r.server) ∨
      ∃ i, l.invoke funcId request l.ser.init r.server
          { r.host with shmKey := r.serverKey } = .ok i ∧
        r'.server = i.server ∧ ∀ io, reply = some io → io = i.reply := by
  cases delivery with
  | lost =>
      cases hrun
      exact .inl ⟨rfl, rfl⟩
  | unanswered =>
      obtain ⟨i, hinv, hrun⟩ := Outcome.bind_eq_ok.mp hrun
      cases hrun
      exact .inr ⟨i, hinv, rfl, fun _ hio => by cases hio⟩
  | answered =>
      obtain ⟨i, hinv, hrun⟩ := Outcome.bind_eq_ok.mp hrun
      cases hrun
      exact .inr ⟨i, hinv, rfl, fun _ hio => by cases hio; rfl⟩

/-- What a caller is told by a proxy of a code, and where the server is. -/
theorem callForCode_cases {α : Type} (hser : l.ser.InOrder holds)
    (funcId : FuncId) {read : Io → Host → Ipc (UnParcelled Io α)}
    {call : α → σ → Int32 × σ} {kept : α → DataInfo}
    (hinvoke : l.invoke funcId = l.invokeCode read call kept)
    {write : Io → Host → Ipc (Io × Host)} {env : ProxyEnv} {r r' : Remote σ}
    {retCode : Int}
    (hrun : l.callForCode write funcId env r = .ok (retCode, r')) :
    (r'.server = r.server ∧ retCode ≠ Retcode.success) ∨
      ∃ a request h, write l.ser.init r.host = .ok (request, h) ∧
        ReadsAs read request { h with shmKey := r.serverKey } a ∧
        r'.server = (call a r.server).2 ∧
        (retCode = Retcode.success →
          (call a r.server).1.toInt = Retcode.success) := by
  have hfailed : (Int32.ofInt Retcode.failure).toInt ≠ Retcode.success := by
    decide
  obtain ⟨⟨request, host⟩, hwrite, hrun⟩ := Outcome.bind_eq_ok.mp hrun
  dsimp only at hrun
  split at hrun
  · cases hrun
    exact .inl ⟨rfl, by decide⟩
  obtain ⟨⟨reply, r₁⟩, htrans, hrun⟩ := Outcome.bind_eq_ok.mp hrun
  rcases transact_cases htrans with ⟨rfl, hsame⟩ | ⟨i, hinv, hserver, hrep⟩
  · cases hrun
    exact .inl ⟨hsame, hfailed⟩
  rw [hinvoke] at hinv
  cases reply with
  | none =>
      cases hrun
      rcases l.invokeCode_cases hinv with
        ⟨-, hsame⟩ | ⟨a, hread, hdone, -⟩
      · exact .inl ⟨hserver.trans hsame, hfailed⟩
      · exact .inr ⟨a, _, _, hwrite, hread, hserver.trans hdone,
          fun hok => absurd hok hfailed⟩
  | some io =>
      obtain rfl := hrep io rfl
      obtain ⟨owner, hcallback, hrun⟩ := Outcome.bind_eq_ok.mp hrun
      cases hrun
      have hfirst := l.callback_first hcallback
      rcases l.invokeCode_cases hinv with
        ⟨hempty, hsame⟩ | ⟨a, hargs, hdone, hcode⟩
      · rw [hempty, hser.noInt32 hser.init] at hfirst
        refine .inl ⟨hserver.trans hsame, ?_⟩
        rw [hfirst]
        exact hfailed
      · obtain ⟨io', hread, -⟩ := hser.readInt32
          (hser.writeInt32 hser.init (v := (call a r.server).1))
        rw [hcode, hread] at hfirst
        refine .inr ⟨a, _, _, hwrite, hargs, hserver.trans hdone,
          fun hok => ?_⟩
        rw [hfirst] at hok
        simpa using hok

theorem callbackBuff_first {owner owner' : NotifyBuff} {reply : Io}
    {h h' : Host} (hrun : l.callbackBuff owner reply h = .ok (owner', h')) :
    owner'.retCode = (l.ser.readInt32 reply).1.getD owner.retCode := by
  simp only [callbackBuff] at hrun
  obtain ⟨r, -, hrun⟩ := Outcome.bind_eq_ok.mp hrun
  split at hrun
  · cases hrun
    rfl
  · cases hrun
    rfl

/-- What a caller is told by a proxy of a payload, and where the server is. -/
theorem callForData_cases {α : Type} (hser : l.ser.InOrder holds)
    (funcId : FuncId) {read : Io → Host → Ipc (UnParcelled Io α)}
    {call : α → σ → Int32 × DataInfo × σ} {clientUid : α → UInt32}
    {kept : α → DataInfo}
    (hinvoke : l.invoke funcId = l.invokeData read call clientUid kept)
    (hout : ∀ a s, (call a s).2.1.Passed)
    {write : Io → Host → Ipc (Io × Host)} {env : ProxyEnv} {r r' : Remote σ}
    {outputInfo out : DataInfo} {retCode : Int}
    (hrun : l.callForData write funcId env outputInfo r =
      .ok (retCode, out, r')) :
    (r'.server = r.server ∧ retCode ≠ Retcode.success) ∨
      ∃ a request h, write l.ser.init r.host = .ok (request, h) ∧
        ReadsAs read request { h with shmKey := r.serverKey } a ∧
        r'.server = (call a r.server).2.2 ∧
        (retCode = Retcode.success →
          (call a r.server).1.toInt = Retcode.success) := by
  have hfailed : NotifyBuff.initial.retCode.toInt ≠ Retcode.success := by
    decide
  obtain ⟨⟨request, host⟩, hwrite, hrun⟩ := Outcome.bind_eq_ok.mp hrun
  dsimp only at hrun
  split at hrun
  · cases hrun
    exact .inl ⟨rfl, by decide⟩
  obtain ⟨⟨reply, r₂⟩, htrans, hrun⟩ := Outcome.bind_eq_ok.mp hrun
  -- The caller is told the code that the object holds, or an error.
  have htold {owner : NotifyBuff} {r₁ : Remote σ}
      (hend : (if owner.ipcRetCode ≠ Retcode.success then
        (.ok (owner.ipcRetCode, outputInfo, r₁) : Ipc _)
        else .ok (owner.retCode.toInt, ⟨owner.outBuff, owner.outLen⟩, r₁)) =
        .ok (retCode, out, r')) : r' = r₁ ∧
      (retCode = Retcode.success → retCode = owner.retCode.toInt) := by
    split at hend
    · next hne =>
        cases hend
        exact ⟨rfl, fun hok => absurd hok hne⟩
    · cases hend
      exact ⟨rfl, fun _ => rfl⟩
  rcases transact_cases htrans with ⟨rfl, hsame⟩ | ⟨i, hinv, hserver, hrep⟩
  · simp only [Outcome.ok_bind] at hrun
    obtain ⟨rfl, hcode⟩ := htold hrun
    exact .inl ⟨hsame, fun hok => hfailed ((hcode hok).symm.trans hok)⟩
  rw [hinvoke] at hinv
  cases reply with
  | none =>
      simp only [Outcome.ok_bind] at hrun
      obtain ⟨rfl, hcode⟩ := htold hrun
      have hno : retCode ≠ Retcode.success := fun hok =>
        hfailed ((hcode hok).symm.trans hok)
      rcases l.invokeData_cases hser hout hinv with
        ⟨-, hsame⟩ | ⟨a, items, hread, hdone, -⟩
      · exact .inl ⟨hserver.trans hsame, hno⟩
      · exact .inr ⟨a, _, _, hwrite, hread, hserver.trans hdone,
          fun hok => absurd hok hno⟩
  | some io =>
      obtain rfl := hrep io rfl
      obtain ⟨⟨owner, host'⟩, hcallback, hrun⟩ := Outcome.bind_eq_ok.mp hrun
      obtain ⟨rfl, hcode⟩ := htold hrun
      have hfirst := l.callbackBuff_first hcallback
      rcases l.invokeData_cases hser hout hinv with
        ⟨hempty, hsame⟩ | ⟨a, items, hargs, hdone, hheld⟩
      · rw [hempty, hser.noInt32 hser.init] at hfirst
        refine .inl ⟨hserver.trans hsame, fun hok => hfailed ?_⟩
        rw [← hok, hcode hok, hfirst]
        rfl
      · obtain ⟨io', hread, -⟩ := hser.readInt32 hheld
        rw [hread] at hfirst
        refine .inr ⟨a, _, _, hwrite, hargs, hserver.trans hdone,
          fun hok => ?_⟩
        rw [← hok, hcode hok, hfirst]
        rfl

/-- What `InitSaEngine` tells, and where the server is. -/
theorem initSaEngine_cases (hser : l.ser.InOrder holds) {description : String}
    {env : ProxyEnv} {c c' : ClientInfo} {r r' : Remote σ} {retCode : Int}
    (hrun : l.initSaEngine description env c r = .ok (retCode, c', r')) :
    (r'.server = r.server ∧
        ¬ (retCode = Retcode.success ∧ c'.clientId ≠ invalidClientId)) ∨
      (r'.server = (l.api.initEngine (some description) r.server).2 ∧
        (c'.clientId ≠ invalidClientId →
          (l.api.initEngine (some description) r.server).1 ≠
            invalidClientId)) := by
  have hserved (h : Host) : l.invoke .initEngine
      (l.ser.writeString l.ser.init description) l.ser.init r.server h =
      .ok ⟨l.ser.writeUint32 (l.ser.writeInt32 l.ser.init
        (l.api.initEngine (some description) r.server).1) l.uid,
        (l.api.initEngine (some description) r.server).2, h⟩ := by
    simp [invoke, invokeInitSaEngine, hser.string description]
  simp only [initSaEngine] at hrun
  split at hrun
  · cases hrun
    exact .inl ⟨rfl, fun hok => absurd hok.1 (by decide)⟩
  obtain ⟨⟨reply, r₂⟩, htrans, hrun⟩ := Outcome.bind_eq_ok.mp hrun
  have hunset : #v[invalidClientId.toUInt32, 0][0].toInt32 =
      invalidClientId := by decide
  rcases transact_cases htrans with ⟨rfl, hsame⟩ | ⟨i, hinv, hserver, hrep⟩
  · cases hrun
    exact .inl ⟨hsame, fun hok => hok.2 hunset⟩
  rw [hserved] at hinv
  cases hinv
  cases reply with
  | none =>
      cases hrun
      exact .inr ⟨hserver, fun hok => absurd hunset hok⟩
  | some io =>
      obtain rfl := hrep io rfl
      obtain ⟨owner, hcallback, hrun⟩ := Outcome.bind_eq_ok.mp hrun
      cases hrun
      have hfirst := l.callback_first hcallback
      obtain ⟨io', hread, -⟩ := hser.readInt32
        (hser.writeUint32 (hser.writeInt32 hser.init
          (v := (l.api.initEngine (some description) r.server).1))
          (v := l.uid))
      rw [hread] at hfirst
      refine .inr ⟨hserver, fun hok => ?_⟩
      rw [hfirst] at hok
      simpa using hok

/-- How a call ends: the server is as it was and a failure is told, or the
server performed once what it received, and a success that is told is the
function's. -/
def Settled (l : Link Io σ) (c : ProxyCall) (r r' : Remote σ)
    (result : ProxyResult) : Prop :=
  (r'.server = r.server ∧ ¬ result.Succeeded) ∨
    ∃ c', l.Received r c c' ∧ r'.server = (l.api.perform r.server c').2 ∧
      (result.Succeeded → c.funcId.Succeeds (l.api.perform r.server c').1)

/-- The proxy of `c` and the function that serves it, which replies with a
code: what it reads makes a call of the same kind, and it performs that. -/
structure ServesCode (l : Link Io σ) {α : Type} (c : ProxyCall)
    (write : Io → Host → Ipc (Io × Host))
    (read : Io → Host → Ipc (UnParcelled Io α)) (call : α → σ → Int32 × σ)
    (made : α → ProxyCall) : Prop where
  write_eq : ∀ h, write l.ser.init h = l.writeCall c h
  invoke_eq : ∃ kept, l.invoke c.funcId = l.invokeCode read call kept
  perform_eq : ∀ a s, l.api.perform s (made a) = call a s
  funcId_eq : ∀ a, (made a).funcId = c.funcId
  reads : ∀ a request h, ReadsAs read request h a →
    l.ReadsCall request h (made a)
  own : ∀ {h request h' key a}, l.PayloadsGo c h →
    write l.ser.init h = .ok (request, h') →
    ReadsAs read request { h' with shmKey := key } a → made a = c
  succeeds : ∀ v : Int32, v.toInt = Retcode.success → c.funcId.Succeeds v

theorem ServesCode.settled {α : Type} (hser : l.ser.InOrder holds)
    {c : ProxyCall} {write : Io → Host → Ipc (Io × Host)}
    {read : Io → Host → Ipc (UnParcelled Io α)} {call : α → σ → Int32 × σ}
    {made : α → ProxyCall} (h : l.ServesCode c write read call made)
    {env : ProxyEnv} {r r' : Remote σ} {retCode : Int}
    (hrun : l.callForCode write c.funcId env r = .ok (retCode, r')) :
    l.Settled c r r' (.code retCode) := by
  obtain ⟨kept, hinvoke⟩ := h.invoke_eq
  rcases l.callForCode_cases hser c.funcId hinvoke hrun with
    hno | ⟨a, request, host, hsent, hargs, hdone, hok⟩
  · exact .inl hno
  · refine .inr ⟨made a, ⟨h.funcId_eq a, ⟨_, _, h.write_eq _ ▸ hsent,
      h.reads _ _ _ hargs⟩, fun hgo => h.own hgo hsent hargs⟩, ?_⟩
    rw [h.perform_eq]
    exact ⟨hdone, fun hsucceeded => h.succeeds _ (hok hsucceeded)⟩

/-- The same of a function that replies with a code and an output. -/
structure ServesData (l : Link Io σ) {α : Type} (c : ProxyCall)
    (write : Io → Host → Ipc (Io × Host))
    (read : Io → Host → Ipc (UnParcelled Io α))
    (call : α → σ → Int32 × DataInfo × σ) (made : α → ProxyCall) : Prop where
  write_eq : ∀ h, write l.ser.init h = l.writeCall c h
  invoke_eq : ∃ clientUid kept,
    l.invoke c.funcId = l.invokeData read call clientUid kept
  perform_eq : ∀ a s,
    l.api.perform s (made a) = ((call a s).1, (call a s).2.2)
  funcId_eq : ∀ a, (made a).funcId = c.funcId
  reads : ∀ a request h, ReadsAs read request h a →
    l.ReadsCall request h (made a)
  own : ∀ {h request h' key a}, l.PayloadsGo c h →
    write l.ser.init h = .ok (request, h') →
    ReadsAs read request { h' with shmKey := key } a → made a = c
  succeeds : ∀ v : Int32, v.toInt = Retcode.success → c.funcId.Succeeds v
  passed : ∀ a s, (call a s).2.1.Passed

theorem ServesData.settled {α : Type} (hser : l.ser.InOrder holds)
    {c : ProxyCall} {write : Io → Host → Ipc (Io × Host)}
    {read : Io → Host → Ipc (UnParcelled Io α)}
    {call : α → σ → Int32 × DataInfo × σ} {made : α → ProxyCall}
    (h : l.ServesData c write read call made) {env : ProxyEnv}
    {r r' : Remote σ} {outputInfo out : DataInfo} {retCode : Int}
    (hrun : l.callForData write c.funcId env outputInfo r =
      .ok (retCode, out, r')) :
    l.Settled c r r' (.data retCode out) := by
  obtain ⟨clientUid, kept, hinvoke⟩ := h.invoke_eq
  rcases l.callForData_cases hser c.funcId hinvoke h.passed hrun with
    hno | ⟨a, request, host, hsent, hargs, hdone, hok⟩
  · exact .inl hno
  · refine .inr ⟨made a, ⟨h.funcId_eq a, ⟨_, _, h.write_eq _ ▸ hsent,
      h.reads _ _ _ hargs⟩, fun hgo => h.own hgo hsent hargs⟩, ?_⟩
    rw [h.perform_eq]
    exact ⟨hdone, fun hsucceeded => h.succeeds _ (hok hsucceeded)⟩

/-! ## The ten calls

Each proxy writes what the function of its `FuncId` reads, in the same order.
-/

theorem initEngine_settled (hser : l.ser.InOrder holds) {description : String}
    {c c' : ClientInfo} {env : ProxyEnv} {r r' : Remote σ} {retCode : Int}
    (hrun : l.initSaEngine description env c r = .ok (retCode, c', r')) :
    l.Settled (.initEngine description c) r r' (.client retCode c') := by
  rcases l.initSaEngine_cases hser hrun with hno | ⟨hdone, hok⟩
  · exact .inl hno
  · have hread : (l.ser.readString
        (l.ser.writeString l.ser.init description)).1 = some description := by
      rw [hser.string]
    exact .inr ⟨.initEngine description c,
      ⟨rfl, ⟨_, r.host, rfl, hread⟩, fun _ => rfl⟩, hdone,
      fun h => hok h.2⟩

theorem destroyEngine_serves (hser : l.ser.InOrder holds) (c : ClientInfo) :
    l.ServesCode (.destroyEngine c) (l.writeClient c) l.readClient
      l.api.destroyEngine .destroyEngine :=
  ⟨fun _ => rfl, ⟨_, by rw [ProxyCall.funcId, invoke, invokeDestroyEngine]⟩,
    fun _ _ => rfl, fun _ => rfl, fun _ _ _ h => h,
    fun hgo hw hr => congrArg _ (client_own hser hgo hw hr), fun _ h => h⟩

theorem syncExecuteAlgorithm_serves (hser : l.ser.InOrder holds)
    (hout : l.api.OutputsPassed) (c : ClientInfo) (g : AlgorithmInfo)
    (d outputInfo : DataInfo) :
    l.ServesData (.syncExecuteAlgorithm c g d outputInfo)
      (l.writeAlgorithm c g d) l.readAlgorithm
      (fun a => l.api.syncExecuteAlgorithm a.1 a.2.1 a.2.2)
      fun a => .syncExecuteAlgorithm a.1 a.2.1 a.2.2 outputInfo :=
  ⟨fun _ => rfl,
    ⟨_, _, by rw [ProxyCall.funcId, invoke, invokeSyncExecute]⟩,
    fun _ _ => rfl, fun _ => rfl, fun _ _ _ h => h,
    fun hgo hw hr => by rw [algorithm_own hser hgo hw hr], fun _ h => h,
    fun a s => hout.syncExecuteAlgorithm a.1 a.2.1 a.2.2 s⟩

theorem asyncExecuteAlgorithm_serves (hser : l.ser.InOrder holds)
    (c : ClientInfo) (g : AlgorithmInfo) (d : DataInfo) :
    l.ServesCode (.asyncExecuteAlgorithm c g d) (l.writeAlgorithm c g d)
      l.readAlgorithm (fun a => l.api.asyncExecuteAlgorithm a.1 a.2.1 a.2.2)
      fun a => .asyncExecuteAlgorithm a.1 a.2.1 a.2.2 :=
  ⟨fun _ => rfl, ⟨_, by rw [ProxyCall.funcId, invoke, invokeAsyncExecute]⟩,
    fun _ _ => rfl, fun _ => rfl, fun _ _ _ h => h,
    fun hgo hw hr => by rw [algorithm_own hser hgo hw hr], fun _ h => h⟩

theorem loadAlgorithm_serves (hser : l.ser.InOrder holds)
    (hout : l.api.OutputsPassed) (c : ClientInfo) (g : AlgorithmInfo)
    (d outputInfo : DataInfo) :
    l.ServesData (.loadAlgorithm c g d outputInfo) (l.writeAlgorithm c g d)
      l.readAlgorithm (fun a => l.api.loadAlgorithm a.1 a.2.1 a.2.2)
      fun a => .loadAlgorithm a.1 a.2.1 a.2.2 outputInfo :=
  ⟨fun _ => rfl,
    ⟨_, _, by rw [ProxyCall.funcId, invoke, invokeLoadAlgorithm]⟩,
    fun _ _ => rfl, fun _ => rfl, fun _ _ _ h => h,
    fun hgo hw hr => by rw [algorithm_own hser hgo hw hr], fun _ h => h,
    fun a s => hout.loadAlgorithm a.1 a.2.1 a.2.2 s⟩

theorem unloadAlgorithm_serves (hser : l.ser.InOrder holds)
    (c : ClientInfo) (g : AlgorithmInfo) (d : DataInfo) :
    l.ServesCode (.unloadAlgorithm c g d) (l.writeAlgorithm c g d)
      l.readAlgorithm (fun a => l.api.unloadAlgorithm a.1 a.2.1 a.2.2)
      fun a => .unloadAlgorithm a.1 a.2.1 a.2.2 :=
  ⟨fun _ => rfl, ⟨_, by rw [ProxyCall.funcId, invoke, invokeUnloadAlgorithm]⟩,
    fun _ _ => rfl, fun _ => rfl, fun _ _ _ h => h,
    fun hgo hw hr => by rw [algorithm_own hser hgo hw hr], fun _ h => h⟩

theorem setOption_serves (hser : l.ser.InOrder holds) (c : ClientInfo)
    (o : Int32) (d : DataInfo) :
    l.ServesCode (.setOption c o d) (l.writeOption c o d) l.readOption
      (fun a => l.api.setOption a.1 a.2.1 a.2.2)
      fun a => .setOption a.1 a.2.1 a.2.2 :=
  ⟨fun _ => rfl, ⟨_, by rw [ProxyCall.funcId, invoke, invokeSetOption]⟩,
    fun _ _ => rfl, fun _ => rfl, fun _ _ _ h => h,
    fun hgo hw hr => by rw [option_own hser hgo hw hr], fun _ h => h⟩

theorem getOption_serves (hser : l.ser.InOrder holds)
    (hout : l.api.OutputsPassed) (c : ClientInfo) (o : Int32)
    (d outputInfo : DataInfo) :
    l.ServesData (.getOption c o d outputInfo) (l.writeOption c o d)
      l.readOption (fun a => l.api.getOption a.1 a.2.1 a.2.2)
      fun a => .getOption a.1 a.2.1 a.2.2 outputInfo :=
  ⟨fun _ => rfl, ⟨_, _, by rw [ProxyCall.funcId, invoke, invokeGetOption]⟩,
    fun _ _ => rfl, fun _ => rfl, fun _ _ _ h => h,
    fun hgo hw hr => by rw [option_own hser hgo hw hr], fun _ h => h,
    fun a s => hout.getOption a.1 a.2.1 a.2.2 s⟩

theorem registerCallback_serves (hser : l.ser.InOrder holds)
    (c : ClientInfo) (sid : SvcIdentity) :
    l.ServesCode (.registerCallback c sid)
      (fun _ => l.writeClient c (l.ser.writeRemoteObject l.ser.init sid).2)
      l.readCallback (fun a => l.api.registerCallback a.1 a.2)
      fun a => .registerCallback a.1 a.2 :=
  ⟨fun _ => rfl,
    ⟨_, by rw [ProxyCall.funcId, invoke, invokeRegisterCallback]⟩,
    fun _ _ => rfl, fun _ => rfl, fun _ _ _ h => h,
    fun hgo hw hr => by rw [callback_own hser hgo hw hr], fun _ h => h⟩

/-- A callback whose object cannot be written is not sent. -/
theorem registerCallback_settled (hser : l.ser.InOrder holds)
    {c : ClientInfo} {sid : SvcIdentity} {env : ProxyEnv} {r r' : Remote σ}
    {retCode : Int}
    (hrun : l.registerCallbackProxy c sid env r = .ok (retCode, r')) :
    l.Settled (.registerCallback c sid) r r' (.code retCode) := by
  simp only [registerCallbackProxy] at hrun
  split at hrun
  · cases hrun
    exact .inl ⟨rfl, show Retcode.failure ≠ Retcode.success by decide⟩
  · exact (registerCallback_serves hser c sid).settled hser hrun

theorem unregisterCallback_serves (hser : l.ser.InOrder holds)
    (c : ClientInfo) :
    l.ServesCode (.unregisterCallback c) (l.writeClient c) l.readClient
      l.api.unregisterCallback .unregisterCallback :=
  ⟨fun _ => rfl,
    ⟨_, by rw [ProxyCall.funcId, invoke, invokeUnregisterCallback]⟩,
    fun _ _ => rfl, fun _ => rfl, fun _ _ _ h => h,
    fun hgo hw hr => congrArg _ (client_own hser hgo hw hr), fun _ h => h⟩

theorem call_settled (hser : l.ser.InOrder holds)
    (hout : l.api.OutputsPassed) {env : ProxyEnv} {r r' : Remote σ}
    {c : ProxyCall} {result : ProxyResult}
    (hrun : l.call env r c = .ok (result, r')) :
    l.Settled c r r' result := by
  cases c with
  | initEngine description c =>
      obtain ⟨⟨retCode, c₁, r₁⟩, hcall, hend⟩ := Outcome.bind_eq_ok.mp hrun
      cases hend
      exact l.initEngine_settled hser hcall
  | destroyEngine c =>
      obtain ⟨⟨retCode, r₁⟩, hcall, hend⟩ := Outcome.bind_eq_ok.mp hrun
      cases hend
      exact (destroyEngine_serves hser c).settled hser hcall
  | syncExecuteAlgorithm c g d outputInfo =>
      obtain ⟨⟨retCode, out, r₁⟩, hcall, hend⟩ := Outcome.bind_eq_ok.mp hrun
      cases hend
      exact (syncExecuteAlgorithm_serves hser hout c g d _).settled hser hcall
  | asyncExecuteAlgorithm c g d =>
      obtain ⟨⟨retCode, r₁⟩, hcall, hend⟩ := Outcome.bind_eq_ok.mp hrun
      cases hend
      exact (asyncExecuteAlgorithm_serves hser c g d).settled hser hcall
  | loadAlgorithm c g d outputInfo =>
      obtain ⟨⟨retCode, out, r₁⟩, hcall, hend⟩ := Outcome.bind_eq_ok.mp hrun
      cases hend
      exact (loadAlgorithm_serves hser hout c g d _).settled hser hcall
  | unloadAlgorithm c g d =>
      obtain ⟨⟨retCode, r₁⟩, hcall, hend⟩ := Outcome.bind_eq_ok.mp hrun
      cases hend
      exact (unloadAlgorithm_serves hser c g d).settled hser hcall
  | setOption c o d =>
      obtain ⟨⟨retCode, r₁⟩, hcall, hend⟩ := Outcome.bind_eq_ok.mp hrun
      cases hend
      exact (setOption_serves hser c o d).settled hser hcall
  | getOption c o d outputInfo =>
      obtain ⟨⟨retCode, out, r₁⟩, hcall, hend⟩ := Outcome.bind_eq_ok.mp hrun
      cases hend
      exact (getOption_serves hser hout c o d _).settled hser hcall
  | registerCallback c sid =>
      obtain ⟨⟨retCode, r₁⟩, hcall, hend⟩ := Outcome.bind_eq_ok.mp hrun
      cases hend
      exact l.registerCallback_settled hser hcall
  | unregisterCallback c =>
      obtain ⟨⟨retCode, r₁⟩, hcall, hend⟩ := Outcome.bind_eq_ok.mp hrun
      cases hend
      exact (unregisterCallback_serves hser c).settled hser hcall

/-- Calls in any number, with any failures on the way: the server's state
comes from performing some of them, each once, and every success that a caller
is told of is the success of a call that was performed. -/
theorem session_performs (hser : l.ser.InOrder holds)
    (hout : l.api.OutputsPassed) {r r' : Remote σ}
    {calls : List (ProxyEnv × ProxyCall)} {results : List ProxyResult}
    (hrun : l.session r calls = .ok (results, r')) :
    Performs l r calls results r' := by
  induction calls generalizing r results with
  | nil =>
      cases hrun
      exact .nil
  | cons call calls ih =>
      obtain ⟨env, c⟩ := call
      obtain ⟨⟨result, r₁⟩, hcall, hrun⟩ := Outcome.bind_eq_ok.mp hrun
      obtain ⟨⟨rest, r₂⟩, hrest, hend⟩ := Outcome.bind_eq_ok.mp hrun
      cases hend
      rcases l.call_settled hser hout hcall with
        ⟨hsame, hno⟩ | ⟨c', hreceived, hdone, hok⟩
      · exact .skipped hcall hsame hno (ih hrest)
      · exact .performed hcall hreceived hdone hok (ih hrest)

end Link

/-- The counting server, on a host where the first system call is refused. -/
def refusingLink : Link Message Nat :=
  { countingLink with served := fun n => n ≠ 0 }

/-- The first message is lost. The payload of the second call finds no
segment, so the server cannot read it. The third one's reply does not come
back, and the fourth, which is the second once more, is answered. -/
def failingCalls : List (ProxyEnv × ProxyCall) :=
  [(⟨true, .lost⟩, .destroyEngine .zero),
    (⟨true, .answered⟩, .setOption .zero 5 (dumpPayload 256)),
    (⟨true, .unanswered⟩, .destroyEngine .zero),
    (⟨true, .answered⟩, .setOption .zero 5 (dumpPayload 256))]

set_option maxRecDepth 8000 in
theorem session_performs_refusing : ∃ r,
    Performs refusingLink countingRemote failingCalls
      [.code Retcode.failure, .code Retcode.failure, .code Retcode.failure,
        .code Retcode.success] r ∧ r.server = 22 := by
  have hrun : ∃ h key, refusingLink.session countingRemote failingCalls =
      .ok ([.code Retcode.failure, .code Retcode.failure,
        .code Retcode.failure, .code Retcode.success], ⟨22, h, key⟩) :=
    ⟨_, _, rfl⟩
  obtain ⟨h, key, hrun⟩ := hrun
  exact ⟨_, Link.session_performs messages_inOrder countingApi_outputsPassed
    hrun, rfl⟩

end AiEngine.Ref
