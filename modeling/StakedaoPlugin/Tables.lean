import StakedaoPlugin.Parameters

/-! The constant tables of `main.c`. -/
namespace StakedaoPlugin
open CMemory

def stakedaoVaultDepositSelector : Selector := #v[0xb6, 0xb5, 0x5f, 0x25]
def stakedaoVaultWithdrawSelector : Selector := #v[0x2e, 0x1a, 0x7d, 0x4d]
def stakedaoVaultDepositAllSelector : Selector := #v[0xde, 0x5f, 0x62, 0x68]
def stakedaoOptDepositEthSelector : Selector := #v[0x53, 0x58, 0xfb, 0xda]
def stakedaoOptWithdrawEthSelector : Selector := #v[0xc7, 0xcd, 0xea, 0x37]
def stakedaoOptDepositUnderlyingSelector : Selector := #v[0x4d, 0x56, 0x93, 0xab]
def stakedaoOptDepositCrvlpSelector : Selector := #v[0xcc, 0x86, 0x90, 0xac]
def stakedaoOptWithdrawUnderlyingSelector : Selector := #v[0xc2, 0x2f, 0xb4, 0xef]
def stakedaoOptWithdrawCrvlpSelector : Selector := #v[0xec, 0xfe, 0x05, 0x21]
def stakedaoPremiumStakeSelector : Selector := #v[0x7b, 0x04, 0x72, 0xf0]
def stakedaoPremiumWithdrawSelector : Selector := #v[0x2e, 0x1a, 0x7d, 0x4d]
def stakedaoPremiumGetrewardSelector : Selector := #v[0x3d, 0x18, 0xb9, 0x12]
def stakedaoPremiumExitSelector : Selector := #v[0xe9, 0xfa, 0xd8, 0xee]
def stakedaoLpDepositSelector : Selector := #v[0xe2, 0xbb, 0xb1, 0x58]
def stakedaoLpWithdrawSelector : Selector := #v[0x44, 0x1a, 0x3e, 0x70]
def stakedaoSanctuaryEnterSelector : Selector := #v[0xa5, 0x9f, 0x3e, 0x0c]
def stakedaoSanctuaryLeaveSelector : Selector := #v[0x67, 0xdf, 0xd4, 0xc9]
def stakedaoPalaceStakeSelector : Selector := #v[0xa6, 0x94, 0xfc, 0x3a]
def stakedaoPalaceWithdrawSelector : Selector := #v[0x2e, 0x1a, 0x7d, 0x4d]
def stakedaoRewardsClaimSelector : Selector := #v[0xea, 0x25, 0xe1, 0x76]
def stakedaoNftStakeSelector : Selector := #v[0xa6, 0x94, 0xfc, 0x3a]
def stakedaoNftUnstakeSelector : Selector := #v[0x2d, 0xef, 0x66, 0x20]
def stakedaoAngleGetRewardSelector : Selector := #v[0x05, 0x5d, 0xe2, 0x75]
def stakedaoCurveAddLiquidity2Selector : Selector := #v[0x0b, 0x4c, 0x7e, 0x4d]
def stakedaoCurveAddLiquidity3Selector : Selector := #v[0x45, 0x15, 0xce, 0xf3]
def stakedaoCurveAddLiquidity3UnderSelector : Selector := #v[0x2b, 0x6e, 0x99, 0x3a]

/-- `STAKEDAO_SELECTORS`; two selectors occur more than once. -/
def stakedaoSelectors : List Selector :=
  [stakedaoVaultDepositSelector, stakedaoVaultWithdrawSelector, stakedaoVaultDepositAllSelector,
    stakedaoOptDepositEthSelector, stakedaoOptWithdrawEthSelector,
    stakedaoOptDepositUnderlyingSelector, stakedaoOptDepositCrvlpSelector,
    stakedaoOptWithdrawUnderlyingSelector, stakedaoOptWithdrawCrvlpSelector,
    stakedaoPremiumStakeSelector, stakedaoPremiumWithdrawSelector,
    stakedaoPremiumGetrewardSelector, stakedaoPremiumExitSelector, stakedaoLpDepositSelector,
    stakedaoLpWithdrawSelector, stakedaoSanctuaryEnterSelector, stakedaoSanctuaryLeaveSelector,
    stakedaoPalaceStakeSelector, stakedaoPalaceWithdrawSelector, stakedaoRewardsClaimSelector,
    stakedaoNftStakeSelector, stakedaoNftUnstakeSelector, stakedaoAngleGetRewardSelector,
    stakedaoCurveAddLiquidity2Selector, stakedaoCurveAddLiquidity3Selector,
    stakedaoCurveAddLiquidity3UnderSelector]

def stakedaoNftBoost : Address :=
  #v[0xa3, 0x24, 0xa2, 0xe3, 0xa6, 0xf6, 0x4b, 0xd5, 0x88, 0x56,
    0x5e, 0x0e, 0x1e, 0x2d, 0xd5, 0x0e, 0x7a, 0x68, 0xbd, 0xd9]

/-- `STAKEDAO_STRATEGIES` -/
def stakedaoStrategies : List StakedaoStrategy :=
  [⟨#v[0xbc, 0x10, 0xc4, 0xf7, 0xb9, 0xfe, 0x0b, 0x30, 0x5e, 0x86,
      0x39, 0xb0, 0x4c, 0x53, 0x66, 0x33, 0xa3, 0xdb, 0x70, 0x65],
    charArray 16 "Passive stETH", charArray 16 "steCRV", charArray 16 "sdsteCRV", 18⟩,
  ⟨#v[0x5a, 0xf1, 0x5d, 0xa8, 0x4a, 0x4a, 0x6e, 0xdf, 0x2d, 0x9f,
      0xa6, 0x72, 0x0d, 0xe9, 0x21, 0xe1, 0x02, 0x6e, 0x37, 0xb7],
    charArray 16 "Passive FRAX", charArray 16 "FRAX3CRV-f", charArray 16 "sdFRAX3CRV-f", 18⟩,
  ⟨#v[0xa2, 0x76, 0x1b, 0x05, 0x39, 0x37, 0x4e, 0xb7, 0xaf, 0x21,
      0x55, 0xf7, 0x6e, 0xb0, 0x98, 0x64, 0xaf, 0x07, 0x52, 0x50],
    charArray 16 "Passive ETH", charArray 16 "eCRV", charArray 16 "sdeCRV", 18⟩,
  ⟨#v[0xb1, 0x76, 0x40, 0x79, 0x6e, 0x4c, 0x27, 0xa3, 0x9a, 0xf5,
      0x18, 0x87, 0xaf, 0xf3, 0xf8, 0xdc, 0x0d, 0xaf, 0x95, 0x67],
    charArray 16 "Passive USD", charArray 16 "3Crv", charArray 16 "sd3Crv", 18⟩,
  ⟨#v[0xcd, 0x69, 0x97, 0x33, 0x48, 0x67, 0x72, 0x8b, 0xa1, 0x4d,
      0x79, 0x22, 0xf7, 0x2c, 0x89, 0x3f, 0xce, 0xe7, 0x0e, 0x84],
    charArray 16 "Passive EUR", charArray 16 "eursCRV", charArray 16 "sdeursCRV", 18⟩,
  ⟨#v[0x24, 0x12, 0x9b, 0x93, 0x5a, 0xff, 0x07, 0x1c, 0x4f, 0x05,
      0x54, 0x88, 0x2c, 0x0d, 0x95, 0x73, 0xf4, 0x97, 0x5f, 0xed],
    charArray 16 "Passive BTC", charArray 16 "crvRenWSBTC", charArray 16 "sdcrvRenWSBTC", 18⟩,
  ⟨#v[0x9b, 0x8f, 0x14, 0x55, 0x4f, 0x40, 0x70, 0x5d, 0xe7, 0x90,
      0x88, 0x79, 0xe2, 0x22, 0x8d, 0x2a, 0xc9, 0x4f, 0xde, 0x1a],
    charArray 16 "ETH Call", charArray 16 "ETH", charArray 16 "sdETHCovCall", 18⟩,
  ⟨#v[0x22, 0x7e, 0x46, 0x35, 0xc5, 0xfe, 0x22, 0xd1, 0xe3, 0x6d,
      0xab, 0x1c, 0x92, 0x1b, 0x62, 0xf8, 0xac, 0xc4, 0x51, 0xb9],
    charArray 16 "BTC Call", charArray 16 "BTC", charArray 16 "sdWbtcCovCall", 18⟩,
  ⟨#v[0x83, 0x9a, 0x98, 0x9b, 0xe4, 0x0f, 0x2d, 0x60, 0xf0, 0x0b,
      0xee, 0xb6, 0x48, 0x90, 0x37, 0x32, 0xc0, 0x41, 0xcb, 0xd7],
    charArray 16 "ETH Put", charArray 16 "FRAX", charArray 16 "sdETH-FRAXPut", 18⟩,
  ⟨#v[0xac, 0x14, 0x86, 0x4c, 0xe5, 0xa9, 0x8a, 0xf3, 0x24, 0x8f,
      0xfb, 0xf5, 0x49, 0x44, 0x1b, 0x04, 0x42, 0x12, 0x47, 0xd3],
    charArray 16 "Sanctuary", charArray 16 "SDT", charArray 16 "xSDT", 18⟩,
  ⟨#v[0x22, 0x17, 0x38, 0xf7, 0x3f, 0xa4, 0xbf, 0xca, 0x91, 0x91,
      0x8e, 0x77, 0xd1, 0x12, 0xb8, 0x7d, 0x91, 0x8c, 0x75, 0x1f],
    charArray 16 "Palace", charArray 16 "xSDT", charArray 16 "Points", 18⟩,
  ⟨#v[0x20, 0xd1, 0xb5, 0x58, 0xef, 0x44, 0xa6, 0xe2, 0x3d, 0x9b,
      0xf4, 0xbf, 0x8d, 0xb1, 0x65, 0x36, 0x26, 0xe6, 0x42, 0xc3],
    charArray 16 "Premium", charArray 16 "SDT", charArray 16 "Reward", 18⟩,
  ⟨#v[0x7d, 0x60, 0xf2, 0x10, 0x72, 0xb5, 0x85, 0x35, 0x1d, 0xfd,
      0x5e, 0x8b, 0x17, 0x10, 0x94, 0x58, 0xd9, 0x7e, 0xc1, 0x20],
    charArray 16 "Passive USD pol", charArray 16 "am3Crv", charArray 16 "sdam3Crv", 18⟩,
  ⟨#v[0x95, 0x3c, 0xf8, 0xf1, 0xf0, 0x97, 0xc2, 0x22, 0x01, 0x5f,
      0xfa, 0x32, 0xc7, 0xb9, 0xe3, 0xe9, 0x69, 0x93, 0xb8, 0xc1],
    charArray 16 "Passive BTC pol", charArray 16 "btcCRV", charArray 16 "sdbtcCRV", 18⟩,
  ⟨#v[0xf3, 0xc2, 0xbd, 0xfc, 0xcb, 0x75, 0xca, 0xfd, 0xa3, 0xd6,
      0x9d, 0x80, 0x7c, 0x33, 0x6b, 0xed, 0xe9, 0x56, 0x56, 0x3f],
    charArray 16 "Passive Angle", charArray 16 "USDC", charArray 16 "sdsanUSDC_EUR", 18⟩,
  ⟨#v[0x84, 0x20, 0x4c, 0x3a, 0x8d, 0xb7, 0xa6, 0x55, 0xf6, 0x23,
      0x62, 0xca, 0x44, 0xf9, 0x65, 0xaf, 0x76, 0xb5, 0x3d, 0x66],
    charArray 16 "Aave Call", charArray 16 "AAVE", charArray 16 "sdAaveCovCall", 18⟩,
  ⟨#v[0x0b, 0xbb, 0x6c, 0x23, 0x64, 0xa4, 0xd0, 0x48, 0x15, 0xf3,
      0xab, 0x30, 0xcf, 0x87, 0xda, 0xee, 0xad, 0x0e, 0xa4, 0xbb],
    charArray 16 "Uni Call", charArray 16 "UNI", charArray 16 "sdUniCovCall", 18⟩,
  ⟨#v[0xa7, 0xb4, 0x60, 0x17, 0x3e, 0xa4, 0x53, 0xb4, 0xea, 0xba,
      0x54, 0xe1, 0xe2, 0x17, 0xc6, 0x1b, 0x1e, 0xc0, 0x08, 0x32],
    charArray 16 "Sushi Call", charArray 16 "SUSHI", charArray 16 "sdSushiCovCall", 18⟩,
  ⟨#v[0x93, 0xcd, 0xea, 0x35, 0xc9, 0x69, 0x42, 0x84, 0x4c, 0xad,
      0xbf, 0x19, 0x2d, 0xf7, 0xd3, 0xf5, 0xa5, 0x02, 0x01, 0xb9],
    charArray 16 "Link Call", charArray 16 "LINK", charArray 16 "sdLinkCovCall", 18⟩]

/-- `CURVE_POOLS` -/
def curvePools : List StakedaoCrvPool :=
  [⟨#v[0xbe, 0xbc, 0x44, 0x78, 0x2c, 0x7d, 0xb0, 0xa1, 0xa6, 0x0c,
      0xb6, 0xfe, 0x97, 0xd0, 0xb4, 0x83, 0x03, 0x2f, 0xf1, 0xc7],
    charArray 16 "3Crv Pool", charArray 16 "DAI/USDC/USDT"⟩,
  ⟨#v[0x44, 0x5f, 0xe5, 0x80, 0xef, 0x8d, 0x70, 0xff, 0x56, 0x9a,
      0xb3, 0x6e, 0x80, 0xc6, 0x47, 0xaf, 0x33, 0x8d, 0xb3, 0x51],
    charArray 16 "3Crv Pool Pol", charArray 16 "DAI/USDC/USDT"⟩,
  ⟨#v[0x7f, 0xc7, 0x7b, 0x5c, 0x76, 0x14, 0xe1, 0x53, 0x33, 0x20,
      0xea, 0x6d, 0xdc, 0x2e, 0xb6, 0x1f, 0xa0, 0x0a, 0x97, 0x14],
    charArray 16 "BTC Pool", charArray 16 "renBTC/WBTC/sBTC"⟩,
  ⟨#v[0x0c, 0xe6, 0xa5, 0xff, 0x52, 0x17, 0xe3, 0x83, 0x15, 0xf8,
      0x70, 0x32, 0xcf, 0x90, 0x68, 0x6c, 0x96, 0x62, 0x7c, 0xaa],
    charArray 16 "Eurs Pool", charArray 16 "EURs/sEUR"⟩]

/-! Entries that are referred to by name. -/

def passiveStEth : StakedaoStrategy := stakedaoStrategies.get ⟨0, by decide⟩
def palace : StakedaoStrategy := stakedaoStrategies.get ⟨10, by decide⟩
def premium : StakedaoStrategy := stakedaoStrategies.get ⟨11, by decide⟩
def threeCrvPool : StakedaoCrvPool := curvePools.get ⟨0, by decide⟩
def btcPool : StakedaoCrvPool := curvePools.get ⟨2, by decide⟩

end StakedaoPlugin
