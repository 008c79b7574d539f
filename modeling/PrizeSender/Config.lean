import PrizeSender.Text

namespace PrizeSender

structure CAppConfigDb where
  mHost : WString := []
  mPort : BitVec 16 := 0
  mName : WString := []
  mUsername : WString := []
  mPassword : WString := []
  deriving DecidableEq, Repr

structure CAppConfigPrize where
  mUsername : WString := []
  mWorld : CInt := 0
  mCharguid : CInt := 0
  mItem : CInt := 0
  mCount : CInt := 0
  deriving DecidableEq, Repr

structure CAppConfig where
  mDbConfig : CAppConfigDb := {}
  mPrizeConfig : CAppConfigPrize := {}
  deriving DecidableEq, Repr

end PrizeSender
