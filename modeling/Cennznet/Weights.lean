import Cennznet.Lib.Word

/-! # Weights

The weights of the accesses to the database are parameters of the pallets. -/

abbrev Weight := BitVec 64

/-- The weight of one read and of one write. A read is not free. -/
structure RuntimeDbWeight where
  read : Weight
  write : Weight
  read_ne_zero : read ≠ 0

namespace RuntimeDbWeight

variable (w : RuntimeDbWeight)

def reads (n : Weight) : Weight := Word.saturatingMul w.read n

def writes (n : Weight) : Weight := Word.saturatingMul w.write n

def readsWrites (n m : Weight) : Weight := Word.saturatingAdd (w.reads n) (w.writes m)

/-- `RocksDbWeight`, the configuration of the runtime. -/
def rocksDb : RuntimeDbWeight := ⟨25000000, 100000000, by decide⟩

end RuntimeDbWeight
