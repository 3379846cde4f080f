import EgressDns.Resolver.SecondOpinion

/-!
# Where an answer ends

`answers_are_compatible` reads the end of an answer off the last record of its answer section. Here
the chain of CNAMEs is followed from the question, and the two are compared.
-/

namespace EgressDns

def cnameAt (answers : List Record) (n : Name) : Option Name :=
  answers.findSome? fun r => match r.data with
    | .cname target => if r.name.same n then some target else none
    | _ => none

/-- The name at the end of the chain; a chain that runs in a circle has none. -/
inductive Ends (answers : List Record) : Name → Name → Prop where
  | here {n : Name} (h : cnameAt answers n = none) : Ends answers n n
  | hop {n target e : Name} (h : cnameAt answers n = some target) (rest : Ends answers target e) :
      Ends answers n e

/-- The type of the data at the end, the last of it in the section; without any it is the CNAME that
led there. -/
def endType (answers : List Record) (question e : Name) : Option RecordType :=
  match (answers.filter fun r => r.name.same e ∧ r.recordType ≠ .cname ∧
      r.recordType ≠ .rrsig).getLast? with
  | some r => some r.recordType
  | none => if (cnameAt answers question).isSome then some .cname else none

def lastTwo (n : Name) : List (List UInt8) := (n.labels.map lower).drop (n.labels.length - 2)

/-- Following the chain from the question ends under these labels, with data of this type. -/
def EndsUnder (msg : Message) (labels : List (List UInt8)) (t : RecordType) : Prop :=
  ∃ query e, msg.queries.head? = some query ∧ Ends msg.answers query.name e ∧
    lastTwo e = labels ∧ endType msg.answers query.name e = some t

def SameEnd (a b : Message) : Prop := ∃ labels t, EndsUnder a labels t ∧ EndsUnder b labels t

/-- Two positive answers whose last records are of one type and read as under one suffix. -/
def LookAlike (hk : Hickory) (a b : Message) : Prop :=
  a.metadata.responseCode = .noError ∧ b.metadata.responseCode = .noError ∧
    ∃ n n' t, terminal a = some (n, t) ∧ terminal b = some (n', t) ∧
      registrableSuffix hk n = registrableSuffix hk n'

variable {hk : Hickory} {a b : Message}

theorem LookAlike.symm (h : LookAlike hk a b) : LookAlike hk b a := by
  obtain ⟨ha, hb, n, n', t, hn, hn', heq⟩ := h
  exact ⟨hb, ha, n', n, t, hn', hn, heq.symm⟩

theorem SameEnd.symm (h : SameEnd a b) : SameEnd b a := by
  obtain ⟨labels, t, ha, hb⟩ := h
  exact ⟨labels, t, hb, ha⟩

def nameOf (labels : List String) : Name :=
  ⟨labels.map fun l => l.toList.map fun c => UInt8.ofNat c.toNat⟩

def address (owner : List String) (addr : BitVec 32) : Record :=
  .fromRdata (nameOf owner) 60 (.a addr)

def positive (answers : List Record) : Message where
  metadata :=
    { id := 0, messageType := .response, opCode := .query, authoritative := false
      truncation := false, recursionDesired := true, recursionAvailable := true
      authenticData := false, checkingDisabled := false, responseCode := .noError }
  queries := [{ name := nameOf ["www", "shop", "test"], qtype := .a, qclass := 1 }]
  answers := answers
  authorities := []
  additionals := []
  edns := none

end EgressDns
